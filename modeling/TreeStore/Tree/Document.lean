import TreeStore.Tree.Basic
import TreeStore.Model.Document
import TreeStore.Number.Numeral

/-! Instance trees as document content. Attribute values are truth values, numbers or texts and are
kept as texts; an attribute without a value is left out. -/

namespace TreeStore.Tree

def fields : List Field := [⟨"type", true⟩, ⟨"attributes", false⟩, ⟨"children", false⟩]

/-- The text of an attribute value. A whole number that needs 64 bits without a sign is written as the
nearest binary number. -/
def valueText? : Datum → Option String
  | .null => none
  | .flag b => some (if b then "true" else "false")
  | .int n => some (if Numeral.isInt64 n then toString n else (Binary64.ofInt n).render .attribute)
  | .real x => some (x.render .attribute)
  | .text s => some s

def readValue (n : Node) : Except Fault String := do
  match valueText? (← n.readDatum) with
  | some s => return s
  | none => throw .notScalar

/-- Reads attribute entries. The last value of a key stays, also if it is none. -/
def readValues (acc : TextMap (Option String)) :
    List (Node × Node) → Except Fault (TextMap (Option String))
  | [] => .ok acc
  | (k, v) :: rest => do
    let key ← k.readText
    readValues (acc.insert key (← v.readOptional readValue)) rest

def readAttributes (n : Node) : Except Fault (TextMap String) := do
  return (← readValues .empty (← n.readDict)).filterMap id

/-- The fields of a node read so far. -/
structure Draft where
  type : Option String := none
  attributes : TextMap String := .empty
  children : List Tree := []

def Draft.complete (d : Draft) : Except Fault Tree :=
  match d.type with
  | some type => .ok ⟨type, d.attributes, d.children⟩
  | none => .error .malformed

mutual

def ofNode : Node → Except Fault Tree
  | .dict _ entries => ofEntries [] {} entries
  | .list .positional items => ofItems items
  | .scalar s => if s.vacant then .error (.missingField "type") else .error s.mismatch
  | .list .plain _ => .error .invalidType
  | .list .tagged _ => .error .invalidType
  | .broken => .error .malformed

/-- Reads the entries of a dictionary one after another. -/
def ofEntries (written : List String) (draft : Draft) : List (Node × Node) → Except Fault Tree
  | [] => do Record.checkMissing fields written; draft.complete
  | (k, v) :: rest => do
    match ← Record.fieldOf fields written k with
    | "type" => ofEntries ("type" :: written) { draft with type := some (← v.readText) } rest
    | "attributes" =>
      ofEntries ("attributes" :: written) { draft with attributes := ← readAttributes v } rest
    | _ => ofEntries ("children" :: written) { draft with children := ← childrenOf v } rest

/-- Reads the values of a list as those of the fields. -/
def ofItems : List Node → Except Fault Tree
  | [] => .error .invalidLength
  | [t] => do return ⟨← t.readText, .empty, []⟩
  | [t, as] => do return ⟨← t.readText, ← readAttributes as, []⟩
  | [t, as, cs] => do return ⟨← t.readText, ← readAttributes as, ← childrenOf cs⟩
  | t :: as :: cs :: _ => do
    let _ ← t.readText
    let _ ← readAttributes as
    let _ ← childrenOf cs
    throw .malformed

def childrenOf : Node → Except Fault (List Tree)
  | .list _ items => ofNodes items
  | .scalar s => if s.vacant then .ok [] else .error s.mismatch
  | .dict .. => .error .invalidType
  | .broken => .error .malformed

def ofNodes : List Node → Except Fault (List Tree)
  | [] => .ok []
  | n :: rest => do
    let t ← ofNode n
    return t :: (← ofNodes rest)

end

mutual

def toNode : Tree → Node
  | ⟨type, attributes, children⟩ =>
    .ofFields (("type", .ofText type)
      :: (if attributes.isEmpty then []
          else [("attributes", .ofFields (attributes.entries.map fun e => (e.1, .ofText e.2)))])
      ++ (if children.isEmpty then [] else [("children", .ofList (toNodes children))]))

def toNodes : List Tree → List Node
  | [] => []
  | t :: rest => toNode t :: toNodes rest

end

end TreeStore.Tree
