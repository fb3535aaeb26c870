import TreeStore.Load.Check
import TreeStore.Config
import TreeStore.Number.Numeral

/-! Loading trees into a store. The whole tree is checked first; then its nodes are visited from the top
down. A node with attributes is matched with a row that has the same values, or else gets a new row. The
ids of the nodes above are carried down; at a leaf of the hierarchy they are recorded as its surroundings.
Rows written before a failure stay. -/

namespace TreeStore

/-- Counts of what a load has done. -/
structure LoadReport where
  rowsInserted : Nat := 0
  rowsReused : Nat := 0
  containers : Nat := 0
  relationshipsInserted : Nat := 0
  relationshipsSkipped : Nat := 0
  junctionsInserted : Nat := 0
  junctionsSkipped : Nat := 0
deriving DecidableEq, Repr

def LoadReport.totalInserted (r : LoadReport) : Nat :=
  r.rowsInserted + r.relationshipsInserted + r.junctionsInserted

/-- The columns of tables that have been asked for, by the small form of the table's name. -/
abbrev ColumnCache := TextMap (List CatalogColumn)

namespace Loader

/-- A load under way. -/
structure Progress (σ : Type) where
  store : σ
  columns : ColumnCache := .empty
  report : LoadReport := {}

abbrev LoadM (σ : Type) := ExceptT LoadError (StateM (Progress σ))

/-- The ids of the nearest nodes above, and of a node itself, by type. -/
abbrev Context := TextMap Int

variable {σ : Type} (store : Store σ)

def ask (path : NodePath) (r : Request) : LoadM σ r.Answer := do
  let p ← get
  let (result, s) := store.answer r p.store
  set { p with store := s }
  match result with
  | .ok x => return x
  | .error error => throw (.store path error)

def count (f : LoadReport → LoadReport) : LoadM σ Unit :=
  modify fun p => { p with report := f p.report }

/-- The columns of a table, of which there has to be one. They are asked for once. -/
def columnsOf (path : NodePath) (table : String) : LoadM σ (List CatalogColumn) := do
  match (← get).columns.get? (Text.lower table) with
  | some columns => return columns
  | none =>
    let columns ← ask store path (.columnsOf table)
    if columns.isEmpty then throw (.misfit path (.noTable table))
    modify fun p => { p with columns := p.columns.insert (Text.lower table) columns }
    return columns

/-- Whether a column's type may stand in a cast. -/
def isPlainType (type : String) : Bool :=
  !type.isEmpty && type.toList.all fun c => c.isAlphanum || ['_', ' ', '(', ')', ','].contains c

/-- The columns of an entity's table that hold attributes: neither ids nor ids of relations. -/
def attributeColumns (h : Hierarchy) (type : String) (columns : List CatalogColumn) :
    List CatalogColumn :=
  let keys := (h.relationsOf type).map fun e => Schema.contextColumn e.relation
  columns.filter fun c =>
    !Text.sameIgnoringCase c.name Schema.idColumn && !keys.any (Text.sameIgnoringCase c.name ·)

def valueFor? (attributes : TextMap String) (c : CatalogColumn) : Option String :=
  (attributes.entries.find? fun a => Text.sameIgnoringCase a.1 c.name).map (·.2)

/-- The values of a node by column, and none for the columns that it lacks. -/
def columnValues (path : NodePath) (attributes : TextMap String) :
    List CatalogColumn → Except LoadError (List (String × Option Operand))
  | [] => .ok []
  | c :: rest => do
    let value ← match valueFor? attributes c with
      | none => pure none
      | some v =>
        if isPlainType c.type then pure (some { param := .text v, type? := some c.type })
        else throw (.misfit path (.badType c.name c.type))
    return (c.name, value) :: (← columnValues path attributes rest)

/-- The condition that a column holds a value, or none. -/
def conditionOf (v : String × Option Operand) : Condition :=
  match v with
  | (column, some value) => .equals column value
  | (column, none) => .isNull column

def selectId (type : String) (values : List (String × Option Operand)) : Select where
  selection := .columns [Schema.idColumn]
  table := type
  conditions := values.map conditionOf
  firstOnly := true

/-- The id in the first column of a row. -/
def idOfRow (table : String) (row : Row) : Except StoreError Int :=
  let value := row.head?.join
  match value.bind Numeral.int64? with
  | some id => .ok id
  | none =>
    .error (.failed .internal (some s!"unreadable id {Text.shownOption value} in table '{table}'"))

/-- Finds the row with a node's values, or inserts one. -/
def findOrInsert (path : NodePath) (type : String) (values : List (String × Option Operand)) : LoadM σ Int := do
  match ← ask store path (.select (selectId type values)) with
  | row :: _ =>
    match idOfRow type row with
    | .error error => throw (.store path error)
    | .ok id =>
      count fun r => { r with rowsReused := r.rowsReused + 1 }
      return id
  | [] =>
    let given := values.filterMap fun v => v.2.map (v.1, ·)
    let id ← ask store path (.insertReturning ⟨type, given⟩)
    count fun r => { r with rowsInserted := r.rowsInserted + 1 }
    return id

/-- Finds the row that matches a node, or inserts one. -/
def upsert (h : Hierarchy) (path : NodePath) (type : String) (attributes : TextMap String) :
    LoadM σ Int := do
  let columns ← columnsOf store path type
  if !columns.any (Text.sameIgnoringCase ·.name Schema.idColumn) then
    throw (.misfit path (.noId type))
  let columns := attributeColumns h type columns
  match attributes.keys.find? fun k => !columns.any (Text.sameIgnoringCase ·.name k) with
  | some key => throw (.misfit path (.notColumn key type))
  | none => pure ()
  findOrInsert store path type (← columnValues path attributes columns)

/-- Inserts a row of ids unless there is one with the same ids, and null in some other columns. Tells
whether it did. -/
def insertUnlessPresent (path : NodePath) (table : String) (ids : List (String × Int))
    (nulls : List String) : LoadM σ Bool := do
  let values : List (String × Operand) := ids.map fun v => (v.1, { param := .int v.2 })
  let conditions := values.map (fun v => .equals v.1 v.2) ++ nulls.map .isNull
  let found ← ask store path
    (.select { selection := .one, table, conditions, firstOnly := true })
  if found.isEmpty then
    ask store path (.insert ⟨table, values⟩)
    return true
  else return false

/-- The id that a column of a leaf's surroundings is to hold. -/
def contextId? (context : Context) (c : CatalogColumn) : Option Int :=
  (context.entries.find? fun e => Text.sameIgnoringCase (Schema.contextColumn e.1) c.name).map (·.2)

/-- Records the surroundings of a leaf, as far as its table has columns for them. -/
def recordRelationship (path : NodePath) (leaf : String) (context : Context) : LoadM σ Unit := do
  let table := Schema.relationshipsTable leaf
  let columns ← columnsOf store path table
  let ids := columns.filterMap fun c => (contextId? context c).map (c.name, ·)
  let nulls := (columns.filter fun c => (contextId? context c).isNone).map (·.name)
  if ← insertUnlessPresent store path table ids nulls then
    count fun r => { r with relationshipsInserted := r.relationshipsInserted + 1 }
  else count fun r => { r with relationshipsSkipped := r.relationshipsSkipped + 1 }

/-- Records a pair of parent and child by the relation of their types. -/
def recordJunction (h : Hierarchy) (path : NodePath) (parent child : String × Int) :
    LoadM σ Unit := do
  match h.relation? parent.1 child.1 with
  | none => return ()
  | some relation =>
    let table := Schema.junctionTable parent.1 relation
    let ids := [(Schema.contextColumn parent.1, parent.2),
      (Schema.junctionTarget parent.1 child.1, child.2)]
    let columns ← columnsOf store path table
    match ids.find? fun v => !columns.any (Text.sameIgnoringCase ·.name v.1) with
    | some v => throw (.misfit path (.noJunctionColumn table v.1))
    | none => pure ()
    if ← insertUnlessPresent store path table ids [] then
      count fun r => { r with junctionsInserted := r.junctionsInserted + 1 }
    else count fun r => { r with junctionsSkipped := r.junctionsSkipped + 1 }

/-- Loads a node without what is below it, given its parent's type and id if that has one. Gives its id,
if it has one, and the ids to be carried down. -/
def visitNode (h : Hierarchy) (settings : LoadSettings) (path : NodePath)
    (parent : Option (String × Int)) (context : Context) (type : String)
    (attributes : TextMap String) : LoadM σ (Option Int × Context) := do
  if attributes.isEmpty then
    count fun r => { r with containers := r.containers + 1 }
    return (none, context)
  else
    let id ← upsert store h path type attributes
    let context := context.insert type id
    if h.isLeaf type then recordRelationship store path type context
    match parent with
    | some parent =>
      if settings.recordJunctions then recordJunction store h path parent (type, id)
    | none => pure ()
    return (some id, context)

mutual

def visit (h : Hierarchy) (settings : LoadSettings) (path : NodePath)
    (parent : Option (String × Int)) (context : Context) : Tree → LoadM σ Unit
  | ⟨type, attributes, children⟩ => do
    let (id, context) ← visitNode store h settings path parent context type attributes
    visitChildren h settings path (id.map (type, ·)) context 0 children

/-- Loads children, the first of which has a number. -/
def visitChildren (h : Hierarchy) (settings : LoadSettings) (path : NodePath)
    (parent : Option (String × Int)) (context : Context) (index : Nat) :
    List Tree → LoadM σ Unit
  | [] => return ()
  | c :: rest => do
    visit h settings (path.child c.type index) parent context c
    visitChildren h settings path parent context (index + 1) rest

end

/-- Checks a tree and loads it, given the hierarchy. -/
def loadWith (h : Hierarchy) (settings : LoadSettings) (t : Tree) : LoadM σ LoadReport := do
  match t.check h settings.maxDepth with
  | .error (path, v) => throw (.violation path v)
  | .ok () =>
    modify fun p => { p with report := {} }
    visit store h settings ⟨t.type, []⟩ none .empty t
    return (← get).report

def load (settings : LoadSettings) (t : Tree) : LoadM σ LoadReport := do
  let p ← get
  let (h, s) := Registry.load store p.store
  set { p with store := s }
  match h with
  | .error error => throw (.registry error)
  | .ok h => loadWith store h settings t

/-- Carries out a load with what is known of columns; gives its outcome, what is known then, and the
store. -/
def run (action : LoadM σ LoadReport) (columns : ColumnCache) (s : σ) :
    Except LoadError LoadReport × ColumnCache × σ :=
  let (result, p) := StateT.run (ExceptT.run action) { store := s, columns }
  (result, p.columns, p.store)

end Loader

end TreeStore
