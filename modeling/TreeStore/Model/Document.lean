import TreeStore.Model.Basic
import TreeStore.Document.Record
import TreeStore.Document.Reading

/-! Meta-models as document content: how one is read from a dictionary, and the dictionary that says
the same. -/

namespace TreeStore

def Attribute.fields : List Field := [⟨"name", true⟩, ⟨"type", true⟩]

def Relation.fields : List Field := [⟨"name", true⟩, ⟨"target", true⟩]

def Entity.fields : List Field := [⟨"name", true⟩, ⟨"attributes", false⟩, ⟨"relations", false⟩]

def Model.fields : List Field := [⟨"name", false⟩, ⟨"entities", true⟩]

def Node.readEach (read : Node → Except Fault α) (n : Node) : Except Fault (List α) := do
  (← n.readList).mapM read

def Attribute.ofNode (n : Node) : Except Fault Attribute := do
  let (name, kind) ← Record.read fields
    (fun (name, kind) field v => match field with
      | "name" => return (some (← v.readName .attribute), kind)
      | _ => return (name, some (ScalarKind.parse (← v.readText))))
    ((none, none) : Option Name × Option ScalarKind) n
  match name, kind with
  | some name, some kind => return ⟨name, kind⟩
  | _, _ => throw .malformed

def Relation.ofNode (n : Node) : Except Fault Relation := do
  let (name, target) ← Record.read fields
    (fun (name, target) field v => match field with
      | "name" => return (some (← v.readName .relation), target)
      | _ => return (name, some (← v.readName .entity)))
    ((none, none) : Option Name × Option Name) n
  match name, target with
  | some name, some target => return ⟨name, target⟩
  | _, _ => throw .malformed

def Entity.ofNode (n : Node) : Except Fault Entity := do
  let (name, attributes, relations) ← Record.read fields
    (fun (name, attributes, relations) field v => match field with
      | "name" => return (some (← v.readName .entity), attributes, relations)
      | "attributes" => return (name, ← v.readEach Attribute.ofNode, relations)
      | _ => return (name, attributes, ← v.readEach Relation.ofNode))
    ((none, [], []) : Option Name × List Attribute × List Relation) n
  match name with
  | some name => return ⟨name, attributes, relations⟩
  | none => throw .malformed

def Model.ofNode (n : Node) : Except Fault Model := do
  let (name, entities) ← Record.read fields
    (fun (name, entities) field v => match field with
      | "name" => return (← v.readOptional Node.readText, entities)
      | _ => return (name, ← v.readEach Entity.ofNode))
    ((none, []) : Option String × List Entity) n
  return ⟨name, entities⟩

def Node.ofFields (fields : List (String × Node)) : Node :=
  .dict false (fields.map fun f => (.ofText f.1, f.2))

def Node.ofList (items : List Node) : Node := .list .plain items

def Attribute.toNode (a : Attribute) : Node :=
  .ofFields [("name", .ofText a.name.text), ("type", .ofText a.kind.word)]

def Relation.toNode (r : Relation) : Node :=
  .ofFields [("name", .ofText r.name.text), ("target", .ofText r.target.text)]

def Entity.toNode (e : Entity) : Node :=
  .ofFields [("name", .ofText e.name.text), ("attributes", .ofList (e.attributes.map (·.toNode))),
    ("relations", .ofList (e.relations.map (·.toNode)))]

def Model.toNode (m : Model) : Node :=
  .ofFields ((m.name.map fun s => ("name", Node.ofText s)).toList
    ++ [("entities", .ofList (m.entities.map (·.toNode)))])

end TreeStore
