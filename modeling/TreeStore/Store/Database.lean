import TreeStore.Store.Request
import TreeStore.Store.ColumnValue

/-! A relational database: named tables of rows, and sequences of numbers. Names of tables and columns are
compared without regard to case, rows stay in the order of their insertion, and a failed request leaves no
row behind. How values are read, compared and written is a parameter. -/

namespace TreeStore

/-- How values of column types are read from texts, compared and written. -/
structure ValueSystem (V : Type) where
  /-- The name of a type in the catalog, if there is such a type. -/
  typeName? : String → Option String
  /-- The value of a type that a text stands for. -/
  ofText? : String → String → Option V
  same : V → V → Bool
  toText : V → String
  /-- The value that a whole number is. -/
  ofInt : Int → V

def ColumnValue.system : ValueSystem ColumnValue where
  typeName? name := (ColumnType.ofName? name).map (·.name)
  ofText? type s := (ColumnType.ofName? type).bind (ofText? · s)
  same := ColumnValue.same
  toText := ColumnValue.toText
  ofInt := .int

/-- What a column of a row holds: a number that is an id, or a value that was read. -/
inductive Cell (V : Type) where
  | id (n : Int)
  | value (v : V)
deriving DecidableEq, Repr

/-- The cells of a row by column; null is `none`. -/
abbrev Cells (V : Type) := List (Option (Cell V))

/-- The cell of a row in the column with a number. -/
def Cells.cell {V : Type} (row : Cells V) (n : Nat) : Option (Cell V) := row[n]?.join

structure StoredTable (V : Type) where
  name : String
  columns : List Column
  primaryKey : List String
  rows : List (Cells V) := []

structure Database (V : Type) where
  tables : List (StoredTable V) := []
  /-- Sequences by name, with their next numbers. -/
  sequences : List (String × Int) := []

/-- Whether two texts name the same table, column or sequence. -/
def sameName (a b : String) : Bool := Text.lower a == Text.lower b

namespace Cell

variable {V : Type} (vs : ValueSystem V)

def same : Cell V → Cell V → Bool
  | .id m, .id n => m = n
  | .value a, .value b => vs.same a b
  | .id n, .value v => vs.same (vs.ofInt n) v
  | .value v, .id n => vs.same v (vs.ofInt n)

/-- Whether two cells are equal, null being equal to null. -/
def sameOrNull : Option (Cell V) → Option (Cell V) → Bool
  | none, none => true
  | some a, some b => a.same vs b
  | _, _ => false

def toText : Cell V → String
  | .id n => toString n
  | .value v => vs.toText v

/-- The cell that an operand gives for a column of a type. -/
def ofOperand? (columnType : String) (o : Operand) : Option (Cell V) :=
  match o.param, o.type? with
  | .int n, none => some (.id n)
  | .int n, some type => (vs.ofText? type (toString n)).map .value
  | .text s, some type => (vs.ofText? type s).map .value
  | .text s, none => (vs.ofText? columnType s).map .value

end Cell

namespace StoredTable

variable {V : Type}

def position? (t : StoredTable V) (column : String) : Option Nat :=
  t.columns.findIdx? (sameName ·.name column)

def cell (t : StoredTable V) (row : Cells V) (column : String) : Option (Cell V) :=
  (t.position? column).bind row.cell

def column? (t : StoredTable V) (name : String) : Option Column :=
  t.columns.find? (sameName ·.name name)

def keyColumns (t : StoredTable V) : List String :=
  if t.primaryKey.isEmpty then (t.columns.filter (·.primaryKey)).map (·.name) else t.primaryKey

/-- Whether the ids of a table can be referenced. -/
def hasIdKey (t : StoredTable V) : Bool :=
  match t.keyColumns with
  | [key] => sameName key Schema.idColumn
  | _ => false

end StoredTable

namespace Database

variable {V : Type} (vs : ValueSystem V)

def table? (db : Database V) (name : String) : Option (StoredTable V) :=
  db.tables.find? (sameName ·.name name)

def hasSequence (db : Database V) (name : String) : Bool := db.sequences.any (sameName ·.1 name)

def failure (fault : StoreFault) : Except StoreError α := .error (.failed fault none)

def tableNames (db : Database V) : List String := sortedDistinct (db.tables.map (·.name))

def hasRepeated : List String → Bool
  | [] => false
  | n :: rest => rest.any (sameName n) || hasRepeated rest

/-! ### Creating tables -/

/-- Creates the sequence of a table, unless it is there. -/
def addSequence (name? : Option String) (db : Database V) : Database V :=
  match name? with
  | some name =>
    if db.hasSequence name then db else { db with sequences := db.sequences ++ [(name, 1)] }
  | none => db

/-- Checks a reference to a table; a table may reference itself. -/
def checkReference (db : Database V) (new : StoredTable V) (target : String) :
    Except StoreError Unit :=
  match (if sameName target new.name then some new else db.table? target) with
  | none => failure .tableNotFound
  | some t => if t.hasIdKey then .ok () else failure .execution

/-- Checks the parts of a definition: types, defaults, keys and references. -/
def checkDefinition (db : Database V) (t : StoredTable V) : Except StoreError Unit := do
  if t.columns.isEmpty then failure .execution
  if hasRepeated (t.columns.map (·.name)) then failure .alreadyExists
  let keys := (t.columns.filter (·.primaryKey)).length + (if t.primaryKey.isEmpty then 0 else 1)
  if 1 < keys || t.primaryKey.any fun k => (t.column? k).isNone then failure .execution
  t.columns.forM fun c => match c.default? with
    | none => pure ()
    | some (.next sequence) => if db.hasSequence sequence then pure () else failure .execution
    | some (.expression _) => failure .execution
  t.columns.forM fun c => match c.references? with
    | none => pure ()
    | some target => db.checkReference t target

/-- The table that a definition describes, with types as the catalog has them. -/
def tableOf (t : Table) : Except StoreError (StoredTable V) := do
  let columns ← t.columns.mapM fun c => match vs.typeName? c.type with
    | some type => pure { c with type }
    | none => failure .execution
  return { name := t.name, columns, primaryKey := t.primaryKey }

def create (t : Table) (db : Database V) : Except StoreError Unit × Database V :=
  let db := db.addSequence t.sequence?
  let result := do
    let new ← tableOf vs t
    db.checkDefinition new
    if (db.table? t.name).isSome then failure .alreadyExists else return new
  match result with
  | .error error => (.error error, db)
  | .ok new => (.ok (), { db with tables := db.tables ++ [new] })

/-! ### Queries -/

def testOf (t : StoredTable V) (c : Condition) : Except StoreError (Cells V → Bool) :=
  match c with
  | .isNull column => match t.position? column with
    | none => failure .execution
    | some n => .ok fun row => (row.cell n).isNone
  | .equals column value => match t.column? column, t.position? column with
    | some c, some n => match Cell.ofOperand? vs c.type value with
      | none => failure .execution
      | some x => .ok fun row => (row.cell n).any (·.same vs x)
    | _, _ => failure .execution

/-- Whether one row comes before another or at the same place; null comes last. -/
def rowLe (t : StoredTable V) : List String → Cells V → Cells V → Bool
  | [], _, _ => true
  | column :: rest, a, b =>
    match (t.cell a column).map (Cell.toText vs), (t.cell b column).map (Cell.toText vs) with
    | some x, some y => if x = y then rowLe t rest a b else x < y
    | some _, none => true
    | none, some _ => false
    | none, none => rowLe t rest a b

def project (t : StoredTable V) (row : Cells V) : Selection → Row
  | .all => row.map fun c => c.map (Cell.toText vs)
  | .one => [some "1"]
  | .columns names => names.map fun n => (t.cell row n).map (Cell.toText vs)

def checkSelection (t : StoredTable V) (q : Select) : Except StoreError Unit :=
  let names := match q.selection with
    | .columns names => names
    | _ => []
  if (names ++ q.orderBy).any fun n => (t.column? n).isNone then failure .execution else .ok ()

def select (q : Select) (db : Database V) : Except StoreError (List Row) :=
  match db.table? q.table with
  | none => failure .tableNotFound
  | some t => do
    checkSelection t q
    let tests ← q.conditions.mapM (testOf vs t)
    let rows := t.rows.filter fun row => tests.all (· row)
    let rows := if q.orderBy.isEmpty then rows else rows.mergeSort (rowLe vs t q.orderBy)
    let rows := if q.firstOnly then rows.take 1 else rows
    return rows.map (project vs t · q.selection)

/-! ### Insertions -/

/-- The end of every sequence: numbers are given out as long as the next one has 64 bits. -/
def endOfSequence : Int := 0x7FFFFFFFFFFFFFFF

/-- The cell of a new row in a column, and the sequences after it. -/
def newCell (values : List (String × Operand)) (c : Column) (sequences : List (String × Int)) :
    Except StoreError (Option (Cell V) × List (String × Int)) :=
  match values.find? (sameName ·.1 c.name) with
  | some (_, o) => match Cell.ofOperand? vs c.type o with
    | some x => .ok (some x, sequences)
    | none => failure .execution
  | none => match c.default? with
    | some (.next name) => match sequences.find? (sameName ·.1 name) with
      | some (_, n) =>
        if n < endOfSequence then
          .ok (some (.id n), sequences.map fun s => if sameName s.1 name then (s.1, s.2 + 1) else s)
        else failure .execution
      | none => failure .execution
    | _ => .ok (none, sequences)

/-- The cells of a new row, and the sequences after it. -/
def newRow (values : List (String × Operand)) :
    List Column → List (String × Int) → Except StoreError (Cells V × List (String × Int))
  | [], sequences => .ok ([], sequences)
  | c :: rest, sequences => do
    let (x, sequences) ← newCell vs values c sequences
    let (xs, sequences) ← newRow values rest sequences
    return (x :: xs, sequences)

/-- Whether a row may stand in a table: nothing is null that must not be, and its key is new. -/
def keepsKeys (t : StoredTable V) (row : Cells V) : Bool :=
  let key := t.keyColumns.filterMap t.position?
  (t.columns.all fun c => !(c.notNull || c.primaryKey) || (t.cell row c.name).isSome)
    && (key.all fun k => (row.cell k).isSome)
    && (key.isEmpty || t.rows.all fun r => !key.all fun k =>
      Cell.sameOrNull vs (r.cell k) (row.cell k))

/-- Whether the ids that a row references are there. -/
def keepsReferences (db : Database V) (t : StoredTable V) (row : Cells V) : Bool :=
  t.columns.all fun c => match c.references?, t.cell row c.name with
    | some target, some x => (db.table? target).any fun u =>
      (u.position? Schema.idColumn).any fun n => u.rows.any fun r => (r.cell n).any (·.same vs x)
    | _, _ => true

def addRow (name : String) (row : Cells V) (db : Database V) : Database V :=
  { db with tables := db.tables.map fun t =>
      if sameName t.name name then { t with rows := t.rows ++ [row] } else t }

/-- The row that an insertion adds to a table, and the sequences after it. -/
def rowOf (i : Insert) (t : StoredTable V) (db : Database V) :
    Except StoreError (Cells V × List (String × Int)) :=
  if i.values.isEmpty || i.values.any fun v => (t.column? v.1).isNone then failure .execution
  else newRow vs i.values t.columns db.sequences

/-- Inserts a row into a table and gives it. References are checked where that is asked for. The numbers
that a row has drawn from sequences are gone, even if the row is refused. -/
def insertInto (enforce : Bool) (i : Insert) (t : StoredTable V) (db : Database V) :
    Except StoreError (Cells V) × Database V :=
  match db.rowOf vs i t with
  | .error error => (.error error, db)
  | .ok (row, sequences) =>
    let drawn := { db with sequences }
    if keepsKeys vs t row && (!enforce || db.keepsReferences vs t row) then
      (.ok row, drawn.addRow t.name row)
    else (failure .constraint, drawn)

def insert (enforce : Bool) (i : Insert) (db : Database V) : Except StoreError Unit × Database V :=
  match db.table? i.table with
  | none => (failure .tableNotFound, db)
  | some t => match db.insertInto vs enforce i t with
    | (.error error, db) => (.error error, db)
    | (.ok _, db) => (.ok (), db)

/-- Inserts a row and gives its id. A row that has none stays, but the request fails. -/
def insertReturning (enforce : Bool) (i : Insert) (db : Database V) :
    Except StoreError Int × Database V :=
  match db.table? i.table with
  | none => (failure .tableNotFound, db)
  | some t =>
    if (t.column? Schema.idColumn).isNone then (failure .execution, db)
    else match db.insertInto vs enforce i t with
      | (.error error, db) => (.error error, db)
      | (.ok row, db) => match t.cell row Schema.idColumn with
        | some (.id n) => (.ok n, db)
        | _ => (failure .execution, db)

/-! ### The store -/

def columnsOf (table : String) (db : Database V) : List CatalogColumn :=
  ((db.table? table).map fun t => t.columns.map fun c => ⟨c.name, c.type⟩).getD []

def answer (enforce : Bool) : (r : Request) → Database V → Except StoreError r.Answer × Database V
  | .create t, db => db.create vs t
  | .select q, db => (db.select vs q, db)
  | .insert i, db => db.insert vs enforce i
  | .insertReturning i, db => db.insertReturning vs enforce i
  | .columnsOf table, db => (.ok (db.columnsOf table), db)

/-- A database as a store. References are checked if `enforce` is set. -/
def store (enforce : Bool) : Store (Database V) := ⟨answer vs enforce⟩

end Database

end TreeStore
