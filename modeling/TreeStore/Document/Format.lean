import TreeStore.Files.Path
import TreeStore.Text.Case

/-! The format of a document is told by the extension of its file's name. -/

namespace TreeStore

inductive Format where
  | yaml
  | json
  | xml
deriving DecidableEq, Repr

namespace Format

def ofExtension? : String → Option Format
  | "yml" | "yaml" => some .yaml
  | "json" => some .json
  | "xml" => some .xml
  | _ => none

/-- The format of the document at a path; the case of ASCII letters does not matter. -/
def ofPath? (path : String) : Option Format := do
  let name ← Path.fileName? path
  let ext ← (Path.splitExtension name).2
  ofExtension? (Text.asciiLower ext)

end Format

end TreeStore
