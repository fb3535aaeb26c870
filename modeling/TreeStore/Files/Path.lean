/-! Paths of files: names between slashes. -/

namespace TreeStore.Path

/-- The parts of a path between its slashes. Empty parts, and single dots after the first part, name
nothing and are left out. -/
def parts (path : String) : List String :=
  match path.splitOn "/" with
  | [] => []
  | first :: rest =>
    (if first = "" then [] else [first]) ++ rest.filter fun p => p ≠ "" ∧ p ≠ "."

/-- The name of the file a path leads to, if it leads to a name. -/
def fileName? (path : String) : Option String :=
  match (parts path).getLast? with
  | none => none
  | some name => if name = ".." ∨ name = "." then none else some name

/-- A file name split at its last dot, unless that is its first character. -/
def splitExtension (name : String) : String × Option String :=
  match name.toList.reverse.span (· ≠ '.') with
  | (_, []) => (name, none)
  | (_, [_]) => (name, none)
  | (ext, _ :: stem) => (String.ofList stem.reverse, some (String.ofList ext.reverse))

/-- The name of the file a path leads to, without its extension. -/
def stem? (path : String) : Option String := (fileName? path).map fun name => (splitExtension name).1

/-- A path from its parts, from the root if `path` is. -/
def join (path : String) (names : List String) : String :=
  (if path.startsWith "/" then "/" else "") ++ "/".intercalate names

/-- The path of the folder around, empty where a path has one part. -/
def parent (path : String) : String := join path (parts path).dropLast

/-- The path of a file in the same folder. -/
def sibling (path name : String) : String :=
  let names := parts path
  join path ((if (fileName? path).isSome then names.dropLast else names) ++ [name])

end TreeStore.Path
