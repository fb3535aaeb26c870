import TreeStore.InputError
import TreeStore.Model.Basic
import TreeStore.Tree.Basic
import TreeStore.Json.Reader
import TreeStore.Json.Value

/-! A model and a tree that fits it, inferred from a JSON document. Objects are nodes, named after their
keys, and objects in arrays are nodes of one entity; other values are attributes of kind text. What is
declared for an entity is the union over its nodes. -/

namespace TreeStore.Infer

def relationName (target : String) : String := "Has" ++ Text.capitalize target

theorem relationName_notBlank (target : String) : Text.isBlank (relationName target) = false := by
  simp [Text.isBlank, relationName, Text.isBlankChar, Text.inRanges, Text.blankRanges]

def relationTo (target : Name) : Relation :=
  ⟨⟨relationName target.text, relationName_notBlank target.text⟩, target⟩

/-- The text of a value that may be an attribute. -/
def valueText? : Json.Value → Option String
  | .text s => some s
  | .flag b => some (if b then "true" else "false")
  | v => v.numberText?

def declare (name : Name) (entities : List Entity) : List Entity :=
  if entities.any (·.name = name) then entities else entities ++ [⟨name, [], []⟩]

def update (name : Name) (f : Entity → Entity) (entities : List Entity) : List Entity :=
  entities.map fun e => if e.name = name then f e else e

def addAttribute (key : Name) (e : Entity) : Entity :=
  if e.attributes.any (·.name = key) then e
  else { e with attributes := e.attributes ++ [⟨key, .text⟩] }

def addRelation (target : Name) (e : Entity) : Entity :=
  if e.relations.any (·.target = target) then e
  else { e with relations := e.relations ++ [relationTo target] }

def emptyNode (entity : Name) : Tree := ⟨entity.text, .empty, []⟩

mutual

/-- Visits the fields of a node that is complete up to them: what is declared then, and the node. Blank
keys mean nothing. -/
def visitFields (entity : Name) (declared : List Entity) (node : Tree) :
    List (String × Json.Value) → List Entity × Tree
  | [] => (declared, node)
  | (key, value) :: rest =>
    match Name.ofText? key with
    | none => visitFields entity declared node rest
    | some name =>
      let (declared, node) := visitValue entity name declared node value
      visitFields entity declared node rest

def visitValue (entity key : Name) (declared : List Entity) (node : Tree) :
    Json.Value → List Entity × Tree
  | .object fields =>
    let declared := declare key (update entity (addRelation key) declared)
    let (declared, child) := visitFields key declared (emptyNode key) fields
    (declared, { node with children := node.children ++ [child] })
  | .list items => visitItems entity key declared node items
  | v => match valueText? v with
    | none => (declared, node)
    | some text =>
      (update entity (addAttribute key) declared,
        { node with attributes := node.attributes.insert key.text text })

def visitItems (entity key : Name) (declared : List Entity) (node : Tree) :
    List Json.Value → List Entity × Tree
  | [] => (declared, node)
  | item :: rest =>
    let (declared, node) := match item with
      | .object fields =>
        let declared := declare key (update entity (addRelation key) declared)
        let (declared, child) := visitFields key declared (emptyNode key) fields
        (declared, { node with children := node.children ++ [child] })
      | _ => (declared, node)
    visitItems entity key declared node rest

end

/-- The name and the fields of the root: an object that holds one object and nothing else only names it. -/
def rootOf (default : String) : List (String × Json.Value) → String × List (String × Json.Value)
  | [(key, .object fields)] => (key, fields)
  | fields => (default, fields)

def ofValue (default : String) : Json.Value → Except InputError (Model × Tree)
  | .object fields =>
    let (root, fields) := rootOf default fields
    match Name.ofText? root with
    | none => .error (.cannotInfer .blankRoot)
    | some name =>
      let (entities, tree) := visitFields name (declare name []) (emptyNode name) fields
      .ok (⟨none, entities⟩, tree)
  | _ => .error (.cannotInfer .notObject)

/-- The model and the tree of a JSON text. -/
def ofText (default text : String) : Except InputError (Model × Tree) :=
  match Json.Value.ofText text with
  | .error _ => .error .badJson
  | .ok v => ofValue default v

end TreeStore.Infer
