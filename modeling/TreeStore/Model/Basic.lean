import TreeStore.Name
import TreeStore.ScalarKind

/-! Meta-models: entities with scalar attributes, and named relations from one entity to another. -/

namespace TreeStore

structure Attribute where
  name : Name
  kind : ScalarKind
deriving DecidableEq

/-- A directed relation from the entity that declares it. -/
structure Relation where
  name : Name
  target : Name
deriving DecidableEq

structure Entity where
  name : Name
  attributes : List Attribute
  relations : List Relation
deriving DecidableEq

/-- Entities in the order of declaration. The model's own name is for information only. -/
structure Model where
  name : Option String
  entities : List Entity
deriving DecidableEq

/-- The column that a relation adds to the table of its source. -/
def Relation.column (r : Relation) : String := r.name.text ++ "_id"

def Entity.isLeaf (e : Entity) : Bool := e.relations.isEmpty

namespace Model

def entity? (m : Model) (name : String) : Option Entity :=
  m.entities.find? (·.name.text = name)

def relationCount (m : Model) : Nat := (m.entities.flatMap (·.relations)).length

end Model

end TreeStore
