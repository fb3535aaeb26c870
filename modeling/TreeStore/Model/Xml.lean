import TreeStore.Model.Basic
import TreeStore.Xml.Element

/-! Meta-models as XML. Entities are elements of one name, in either of its spellings and at any depth
below the root but not inside each other; their direct `attribute` and `relation` children are their
members. Other elements mean nothing. -/

namespace TreeStore.Xml.Element

def isEntity (e : Element) : Bool :=
  Text.sameIgnoringCase e.name "Enitity" || Text.sameIgnoringCase e.name "Entity"

/-- The name of an element that has to have one. -/
def requireName (e : Element) : Except Fault Name :=
  match (e.attribute? "Name").bind Name.ofText? with
  | some name => .ok name
  | none => .error (.noName e.name)

def toAttribute (e : Element) : Except Fault Attribute := do
  return ⟨← e.requireName, ScalarKind.parse ((e.attribute? "type").getD "")⟩

/-- Reads a relation of the named entity. Its target is asked for before its name. -/
def toRelation (entity : Name) (e : Element) : Except Fault Relation := do
  match (e.attribute? "target").bind Name.ofText? with
  | some target => return ⟨← e.requireName, target⟩
  | none => throw (.noTarget entity.text)

/-- Adds a child of an entity's element to the entity, if it is a member. -/
def addMember (entity : Entity) (child : Element) : Except Fault Entity := do
  if Text.sameIgnoringCase child.name "attribute" then
    return { entity with attributes := entity.attributes ++ [← child.toAttribute] }
  else if Text.sameIgnoringCase child.name "relation" then
    return { entity with relations := entity.relations ++ [← child.toRelation entity.name] }
  else return entity

def toEntity (e : Element) : Except Fault Entity := do
  e.children.foldlM addMember ⟨← e.requireName, [], []⟩

mutual

/-- The entities below an element, in the order of the document. -/
def entitiesBelow : Element → Except Fault (List Entity)
  | ⟨_, _, children⟩ => entitiesAmong children

def entitiesAmong : List Element → Except Fault (List Entity)
  | [] => .ok []
  | e :: rest => do
    let found ← if e.isEntity then (fun x => [x]) <$> e.toEntity else entitiesBelow e
    return found ++ (← entitiesAmong rest)

end

def toModel (root : Element) : Except Fault Model := do
  match ← root.entitiesBelow with
  | [] => throw (.noEntities root.name)
  | entities => return ⟨root.attribute? "Name", entities⟩

end TreeStore.Xml.Element
