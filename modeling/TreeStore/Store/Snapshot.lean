import TreeStore.Store.Database
import TreeStore.Json.Value

/-! A database as a text, in which it can be kept. An id is a number in it; a value is a text, which the
type of its column reads. -/

namespace TreeStore.Snapshot

open Json (Value)

variable {V : Type} (vs : ValueSystem V)

/-! ### Writing -/

def ofOption (f : α → Value) : Option α → Value
  | none => .null
  | some x => f x

def ofTexts (xs : List String) : Value := .list (xs.map .text)

def ofDefault : ColumnDefault → Value
  | .next sequence => .list [.text "next", .text sequence]
  | .expression sql => .list [.text "expression", .text sql]

def ofColumn (c : Column) : Value :=
  .list [.text c.name, .text c.type, .flag c.notNull, .flag c.primaryKey, ofOption ofDefault c.default?,
    ofOption .text c.references?]

def ofCell : Cell V → Value
  | .id n => .int n
  | .value v => .text (vs.toText v)

def ofTable (t : StoredTable V) : Value :=
  .list [.text t.name, .list (t.columns.map ofColumn), ofTexts t.primaryKey,
    .list (t.rows.map fun row => .list (row.map (ofOption (ofCell vs))))]

def ofSequence (s : String × Int) : Value := .list [.text s.1, .int s.2]

def ofDatabase (db : Database V) : Value :=
  .list [.list (db.tables.map (ofTable vs)), .list (db.sequences.map ofSequence)]

def render (db : Database V) : String := (ofDatabase vs db).render

/-! ### Reading -/

def list? (f : Value → Option α) : Value → Option (List α)
  | .list xs => xs.mapM f
  | _ => none

def option? (f : Value → Option α) : Value → Option (Option α)
  | .null => some none
  | v => some <$> f v

def text? : Value → Option String
  | .text s => some s
  | _ => none

def default? : Value → Option ColumnDefault
  | .list [.text "next", .text sequence] => some (.next sequence)
  | .list [.text "expression", .text sql] => some (.expression sql)
  | _ => none

def column? : Value → Option Column
  | .list [.text name, .text type, .flag notNull, .flag primaryKey, d, r] => do
    return ⟨name, type, notNull, primaryKey, ← option? default? d, ← option? text? r⟩
  | _ => none

def cell? (c : Column) : Value → Option (Cell V)
  | .int n => some (.id n)
  | .text s => (vs.ofText? c.type s).map .value
  | _ => none

def cells? : List Column → List Value → Option (Cells V)
  | [], [] => some []
  | c :: cs, v :: rest => do return (← option? (cell? vs c) v) :: (← cells? cs rest)
  | _, _ => none

def row? (columns : List Column) : Value → Option (Cells V)
  | .list xs => cells? vs columns xs
  | _ => none

def table? : Value → Option (StoredTable V)
  | .list [.text name, columns, key, rows] => do
    let columns ← list? column? columns
    return ⟨name, columns, ← list? text? key, ← list? (row? vs columns) rows⟩
  | _ => none

def sequence? : Value → Option (String × Int)
  | .list [.text name, .int n] => some (name, n)
  | _ => none

def database? : Value → Option (Database V)
  | .list [tables, sequences] => do
    return ⟨← list? (table? vs) tables, ← list? sequence? sequences⟩
  | _ => none

def ofText? (s : String) : Option (Database V) := (Value.ofText s).toOption.bind (database? vs)

end TreeStore.Snapshot
