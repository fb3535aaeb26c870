import TreeStore.Hierarchy
import TreeStore.ScalarKind

/-! Tables to be created, and statements: a table to be created or an entry of the hierarchy to be
registered. -/

namespace TreeStore

/-- What a table holds. -/
inductive TableKind where
  | registry
  /-- A row for each entity instance. -/
  | entity
  /-- Pairs of parent and child by one relation. -/
  | junction
  /-- The ids around each instance of a leaf. -/
  | relationships
deriving DecidableEq, Repr

def TableKind.word : TableKind → String
  | .registry => "registry"
  | .entity => "entity"
  | .junction => "junction"
  | .relationships => "relationships"

/-- The value of a column for which none is given. -/
inductive ColumnDefault where
  /-- The next number of a sequence. -/
  | next (sequence : String)
  | expression (sql : String)
deriving DecidableEq, Repr

structure Column where
  name : String
  type : String
  notNull : Bool := false
  primaryKey : Bool := false
  default? : Option ColumnDefault := none
  /-- The table whose ids the column holds. -/
  references? : Option String := none
deriving DecidableEq, Repr

structure Table where
  name : String
  kind : TableKind
  columns : List Column
  /-- The columns that make up the primary key together. -/
  primaryKey : List String := []
  /-- The sequence to be created with the table. -/
  sequence? : Option String := none
deriving DecidableEq, Repr

namespace Table

def column? (t : Table) (name : String) : Option Column := t.columns.find? (·.name = name)

def columnNames (t : Table) : List String := t.columns.map (·.name)

def foreignKeys (t : Table) : List (String × String) :=
  t.columns.filterMap fun c => c.references?.map (c.name, ·)

end Table

inductive Statement where
  | create (t : Table)
  | register (e : HierarchyEntry)
deriving DecidableEq, Repr

namespace Statement

def label : Statement → String
  | .create t => s!"create {t.kind.word} table {t.name}"
  | .register e => s!"register {e.text}"

def table? : Statement → Option Table
  | .create t => some t
  | .register _ => none

def registration? : Statement → Option HierarchyEntry
  | .create _ => none
  | .register e => some e

end Statement

/-! ### Names of generated tables and columns -/

namespace Schema

/-- The column that holds the ids of a table. -/
def idColumn : String := "id"

def registryTable : String := "entity_hierarchy"

def parentColumn : String := "parent_entity"

def childColumn : String := "child_entity"

def relationColumn : String := "relation_name"

def junctionTable (source relation : String) : String := s!"relation_{source}_{relation}"

def relationshipsTable (leaf : String) : String := leaf ++ "_relationships"

def contextColumn (entity : String) : String := entity ++ "_id"

/-- The column of the children in a junction table. -/
def junctionTarget (source target : String) : String :=
  if source = target then "child_" ++ contextColumn target else contextColumn target

def sequenceOf (entity : String) : String := "seq_" ++ entity

end Schema

end TreeStore
