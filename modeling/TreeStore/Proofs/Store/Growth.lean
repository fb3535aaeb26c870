import TreeStore.Proofs.Store.Applied

/-! How a database changes while trees are loaded: its tables stay, and each gets further rows at its end.
The rows of a table and the next number of a sequence say all that changes. -/

namespace TreeStore

def StoredTable.blank {V : Type} (t : StoredTable V) : StoredTable V := { t with rows := [] }

def StoredTable.withRows {V : Type} (t : StoredTable V) (rows : List (Cells V)) : StoredTable V :=
  { t with rows }

namespace Database

variable {V : Type}

/-- The rows of a table, none if there is no such table. -/
def rowsOf (db : Database V) (name : String) : List (Cells V) := ((db.table? name).map (·.rows)).getD []

def next? (db : Database V) (name : String) : Option Int :=
  (db.sequences.find? (sameName ·.1 name)).map (·.2)

def draw (name : String) (db : Database V) : Database V :=
  { db with sequences := db.sequences.map fun s => if sameName s.1 name then (s.1, s.2 + 1) else s }

theorem next?_draw (db : Database V) (name other : String) : (db.draw name).next? other =
    (db.next? other).map fun n => if sameName other name then n + 1 else n := by
  have names : (fun s : String × Int => sameName (if sameName s.1 name then (s.1, s.2 + 1) else s).1 other) =
      fun s => sameName s.1 other := by
    funext s
    split <;> rfl
  have find := List.find?_map (f := fun s : String × Int => if sameName s.1 name then (s.1, s.2 + 1) else s)
    (p := fun s => sameName s.1 other) (l := db.sequences)
  rw [Function.comp_def, names] at find
  rw [next?, next?, draw, find, Option.map_map, Option.map_map]
  refine Option.map_congr fun s hs => ?_
  have found : sameName s.1 other = true :=
    List.find?_some (p := fun s : String × Int => sameName s.1 other) hs
  have same : sameName s.1 name = sameName other name := by
    rw [Bool.eq_iff_iff, sameName_iff, sameName_iff, sameName_iff.1 found]
  simp only [Function.comp_apply, same]
  split <;> rfl

/-! ### Growing -/

/-- One database goes on from another: it has the same tables, with further rows. -/
def Grows (db db' : Database V) : Prop :=
  ∀ name, ∃ more, db'.table? name = (db.table? name).map fun t => t.withRows (t.rows ++ more)

namespace Grows

variable {db db' db'' : Database V}

theorem refl (db : Database V) : db.Grows db := fun name => by
  refine ⟨[], ?_⟩
  cases db.table? name <;> simp [StoredTable.withRows]

theorem trans (first : db.Grows db') (second : db'.Grows db'') : db.Grows db'' := fun name => by
  obtain ⟨more, eq⟩ := first name
  obtain ⟨more', eq'⟩ := second name
  refine ⟨more ++ more', ?_⟩
  rw [eq', eq, Option.map_map]
  simp [Function.comp_def, StoredTable.withRows]

theorem addRow (db : Database V) (name : String) (row : Cells V) : db.Grows (db.addRow name row) := by
  intro n
  rw [table?_addRow]
  by_cases same : sameName n name = true
  · refine ⟨[row], Option.map_congr fun t ht => ?_⟩
    have found : sameName t.name n = true := (table?_mem ht).2
    rw [if_pos (sameName_iff.2 ((sameName_iff.1 found).trans (sameName_iff.1 same)))]
    rfl
  · refine ⟨[], Option.map_congr fun t ht => ?_⟩
    have found : sameName t.name n = true := (table?_mem ht).2
    rw [if_neg fun other => same (sameName_iff.2 ((sameName_iff.1 found).symm.trans (sameName_iff.1 other)))]
    simp [StoredTable.withRows]

theorem draw (db : Database V) (name : String) : db.Grows (db.draw name) := fun n => refl db n

theorem rowsOf (grows : db.Grows db') (name : String) : db.rowsOf name <+: db'.rowsOf name := by
  obtain ⟨more, eq⟩ := grows name
  rw [Database.rowsOf, Database.rowsOf, eq]
  cases db.table? name with
  | none => exact List.prefix_refl _
  | some t => exact List.prefix_append t.rows more

theorem mem_rowsOf (grows : db.Grows db') {name : String} {row : Cells V} (mem : row ∈ db.rowsOf name) :
    row ∈ db'.rowsOf name :=
  (grows.rowsOf name).subset mem

end Grows

/-! ### The tables of a model -/

variable (vs : ValueSystem V)

def LaysOut (m : Model) (db : Database V) : Prop := db.tables.map StoredTable.blank = m.tables.map (stored vs)

theorem founded_laysOut (m : Model) : LaysOut vs m (founded vs m) := by
  rw [LaysOut, founded, withHierarchy, m.tables_eq, List.map_cons, List.map_cons, List.map_map]
  congr 1

variable {vs} {m : Model} {db : Database V}

theorem LaysOut.addRow (there : LaysOut vs m db) (name : String) (row : Cells V) :
    LaysOut vs m (db.addRow name row) := by
  rw [LaysOut, ← there, Database.addRow, List.map_map]
  refine List.map_congr_left fun t _ => ?_
  rw [Function.comp_apply]
  split <;> rfl

theorem LaysOut.draw (there : LaysOut vs m db) (name : String) : LaysOut vs m (db.draw name) := there

variable (compiles : m.Compiles)
include compiles

theorem LaysOut.table? (there : LaysOut vs m db) {t : Table} (mem : t ∈ m.tables) :
    db.table? t.name = some ((stored vs t).withRows (db.rowsOf t.name)) := by
  have names : (db.tables.map (Text.lower ·.name)).Nodup := by
    have blanks : db.tables.map (Text.lower ·.name) = (db.tables.map StoredTable.blank).map (Text.lower ·.name) := by
      simp [StoredTable.blank]
    have keys := compiles.table_keys
    rw [blanks, there, List.map_map]
    simpa only [stored, Function.comp_def] using keys
  obtain ⟨u, hu, blank⟩ : ∃ u ∈ db.tables, u.blank = stored vs t := by
    rw [← List.mem_map, there]
    exact List.mem_map_of_mem mem
  have name : u.name = t.name := congrArg StoredTable.name blank
  have found := table?_eq names hu (name ▸ sameName_self u.name : sameName u.name t.name = true)
  rw [rowsOf, found, ← blank]
  rfl

theorem LaysOut.rowsOf_addRow (there : LaysOut vs m db) {t u : Table} (ht : t ∈ m.tables) (hu : u ∈ m.tables)
    (row : Cells V) : (db.addRow t.name row).rowsOf u.name =
      if u = t then db.rowsOf u.name ++ [row] else db.rowsOf u.name := by
  rw [rowsOf, table?_addRow, there.table? compiles hu, Option.map_some, Option.map_some, Option.getD_some]
  have same : sameName ((stored vs u).withRows (db.rowsOf u.name)).name t.name = true ↔ u = t :=
    ⟨fun same => compiles.table_unique hu ht same, fun eq => eq ▸ sameName_self _⟩
  by_cases eq : u = t
  · rw [if_pos (same.2 eq), if_pos eq]
    rfl
  · rw [if_neg fun h => eq (same.1 h), if_neg eq]
    rfl

end Database

end TreeStore
