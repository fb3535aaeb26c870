import TreeStore.Schema.Order
import TreeStore.Schema.Sql

/-! Relational schemas: the statements that lay down the tables of a model, in the order in which they
are to be applied. -/

namespace TreeStore

structure Schema where
  statements : List Statement
deriving DecidableEq

namespace Schema

def tables (s : Schema) : List Table := s.statements.filterMap (·.table?)

/-- The entries to be registered, one for each relation. -/
def entries (s : Schema) : List HierarchyEntry := s.statements.filterMap (·.registration?)

def hierarchy (s : Schema) : Hierarchy := .ofEntries s.entries

def script (s : Schema) : String := String.join (s.statements.map (·.sql ++ ";\n\n"))

def registry : Table where
  name := registryTable
  kind := .registry
  columns := [parentColumn, childColumn, relationColumn].map fun c =>
    { name := c, type := "VARCHAR", notNull := true }
  primaryKey := [parentColumn, childColumn]

/-- The table of an entity. Its relations reference the tables that are there already. -/
def entityTable (created : List Name) (e : Entity) : Table where
  name := e.name.text
  kind := .entity
  columns :=
    { name := idColumn, type := "BIGINT", primaryKey := true
      default? := some (.next (sequenceOf e.name.text)) }
    :: e.attributes.map (fun a => { name := a.name.text, type := a.kind.columnType })
    ++ e.relations.map fun r =>
      { name := r.column, type := "BIGINT"
        references? := if r.target ≠ e.name ∧ r.target ∈ created then some r.target.text else none }
  sequence? := some (sequenceOf e.name.text)

/-- The tables of entities that are created one after another. -/
def entityTables (created : List Name) : List Entity → List Table
  | [] => []
  | e :: rest => entityTable created e :: entityTables (e.name :: created) rest

def junction (source : Name) (r : Relation) : Table where
  name := junctionTable source.text r.name.text
  kind := .junction
  columns :=
    [ { name := contextColumn source.text, type := "BIGINT", notNull := true
        references? := some source.text },
      { name := junctionTarget source.text r.target.text, type := "BIGINT", notNull := true
        references? := some r.target.text } ]

def context (entity : String) : Column :=
  { name := contextColumn entity, type := "BIGINT", references? := some entity }

/-- The table of a leaf's surroundings, with a column for every entity above it. -/
def relationships (m : Model) (h : Hierarchy) (leaf : Name) : Table where
  name := relationshipsTable leaf.text
  kind := .relationships
  columns :=
    ((m.entities.map (·.name.text)).filter (h.ancestorsOf leaf.text).contains).map context
      ++ [context leaf.text]

end Schema

namespace Model

def hierarchyEntries (m : Model) : List HierarchyEntry :=
  m.entities.flatMap fun e => e.relations.map fun r => ⟨e.name.text, r.target.text, r.name.text⟩

def hierarchy (m : Model) : Hierarchy := .ofEntries m.hierarchyEntries

def junctions (m : Model) : List Table :=
  m.entities.flatMap fun e => e.relations.map (Schema.junction e.name)

def relationshipTables (m : Model) : List Table :=
  (m.entities.filter (m.hierarchy.isLeaf ·.name.text)).map (Schema.relationships m m.hierarchy ·.name)

/-- All tables of a model, in the order of creation. -/
def tables (m : Model) : List Table :=
  Schema.registry :: Schema.entityTables [] m.creationOrder ++ m.junctions ++ m.relationshipTables

/-- The schema of a model, be it sound or not. -/
def schema (m : Model) : Schema :=
  ⟨m.tables.map .create ++ m.hierarchyEntries.map .register⟩

end Model

end TreeStore
