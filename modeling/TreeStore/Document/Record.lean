import TreeStore.Document.Node

/-! Records: dictionaries with a fixed set of fields, each written at most once and in any order, or
lists of the fields' values by position where the format allows it. -/

namespace TreeStore

/-- A field of a record. -/
structure Field where
  name : String
  required : Bool

namespace Record

/-- The field that a key names, given the fields written before it. -/
def fieldOf (fields : List Field) (written : List String) (key : Node) : Except Fault String := do
  let name ← key.readText
  if !(fields.map (·.name)).contains name then throw (.unknownField name (fields.map (·.name)))
  if written.contains name then throw (.duplicateField name)
  return name

/-- Refuses to leave out a required field; the first one in the order of declaration counts. -/
def checkMissing (fields : List Field) (written : List String) : Except Fault Unit :=
  match fields.find? fun f => f.required && !written.contains f.name with
  | some f => .error (.missingField f.name)
  | none => .ok ()

/-- Refuses a list that is too short for the required fields. -/
def checkLength (fields : List Field) : Except Fault Unit :=
  if fields.any (·.required) then .error .invalidLength else .ok ()

/-- Reads the entries of a dictionary one after another. -/
def readEntries (fields : List Field) (read : α → String → Node → Except Fault α)
    (written : List String) (acc : α) : List (Node × Node) → Except Fault α
  | [] => do checkMissing fields written; return acc
  | (k, v) :: rest => do
    let name ← fieldOf fields written k
    readEntries fields read (name :: written) (← read acc name v) rest

/-- Reads the values of a list as those of the fields. -/
def readItems (read : α → String → Node → Except Fault α) (acc : α) :
    List Field → List Node → Except Fault α
  | [], [] => .ok acc
  | [], _ :: _ => .error .malformed
  | fields, [] => do checkLength fields; return acc
  | f :: fields, n :: rest => do readItems read (← read acc f.name n) fields rest

/-- Reads a record, starting from what an absent field means. -/
def read (fields : List Field) (read : α → String → Node → Except Fault α) (start : α) :
    Node → Except Fault α
  | .dict _ entries => readEntries fields read [] start entries
  | .list .positional items => readItems read start fields items
  | .scalar s => if s.vacant then readEntries fields read [] start [] else .error s.mismatch
  | n => .error n.mismatch

end Record

end TreeStore
