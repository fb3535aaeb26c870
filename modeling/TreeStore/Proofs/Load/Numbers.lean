import TreeStore.Proofs.Load.Upsert

/-! The number that a database has for a node: that of the first row that carries its attributes. Once a node
has a number it keeps it, whatever is loaded afterwards. -/

namespace TreeStore

open Database Loader

variable {V : Type} (vs : ValueSystem V)

/-- The number of the first row that carries a node's attributes. -/
def Database.numberOf (db : Database V) (type : String) (attributes : TextMap String) : Option Int :=
  (db.table? type).bind fun t => (t.rows.find? (t.carries vs attributes)).bind t.idOf?

variable {vs} {m : Model} {db db' : Database V}

theorem Database.Grows.numberOf (grows : db.Grows db') {type : String} {attributes : TextMap String} {n : Int}
    (number : db.numberOf vs type attributes = some n) : db'.numberOf vs type attributes = some n := by
  obtain ⟨t, found, number⟩ := Option.bind_eq_some_iff.1 number
  obtain ⟨row, first, number⟩ := Option.bind_eq_some_iff.1 number
  obtain ⟨more, later⟩ := grows type
  have still : (t.rows ++ more).find? (t.carries vs attributes) = some row := by
    rw [List.find?_append, first]
    rfl
  rw [Database.numberOf, later, found, Option.map_some, Option.bind_some]
  exact Option.bind_eq_some_iff.2 ⟨row, still, number⟩

theorem Database.hasId_of_numberOf {type : String} {attributes : TextMap String} {n : Int}
    (number : db.numberOf vs type attributes = some n) : db.HasId type n := by
  obtain ⟨t, found, number⟩ := Option.bind_eq_some_iff.1 number
  obtain ⟨row, first, number⟩ := Option.bind_eq_some_iff.1 number
  exact ⟨t, found, row, List.mem_of_find?_eq_some first, StoredTable.idOf?_eq_some.1 number⟩

variable (compiles : m.Compiles)
include compiles

theorem Database.LaysOut.numberOf (there : LaysOut vs m db) {t : Table} (mem : t ∈ m.tables)
    (attributes : TextMap String) : db.numberOf vs t.name attributes =
      ((db.rowsOf t.name).find? ((stored vs t).carries vs attributes)).bind (stored vs t).idOf? := by
  rw [Database.numberOf, there.table? compiles mem]
  rfl

variable {t : Table} {attributes : TextMap String} {report report' : LoadReport} {n : Int} (mem : t ∈ m.tables)
include mem

namespace Upserted

variable (upserted : Upserted vs m t attributes db report n db' report')
include upserted

omit compiles mem in
theorem grows : db.Grows db' := by
  cases upserted with
  | found first number => exact .refl db
  | added new next left => exact (Grows.draw db _).trans (.addRow _ _ _)

theorem consistent (ideal : vs.Ideal) (kind : t.kind = .entity) (before : Consistent vs m db)
    (fits : (stored vs t).Fits m.hierarchy attributes)
    (castable : (stored vs t).Castable vs m.hierarchy attributes) : Consistent vs m db' := by
  cases upserted with
  | found first number => exact before
  | added new next left => exact before.addEntity compiles ideal mem kind next left fits castable new

theorem numberOf (ideal : vs.Ideal) (kind : t.kind = .entity) (before : Consistent vs m db)
    (fits : (stored vs t).Fits m.hierarchy attributes)
    (castable : (stored vs t).Castable vs m.hierarchy attributes) :
    db'.numberOf vs t.name attributes = some n := by
  have after := (upserted.consistent compiles mem ideal kind before fits castable).there
  rw [after.numberOf compiles mem]
  cases upserted with
  | found first number => rw [first, Option.bind_some, number]
  | added new next left =>
    have ofEntity := compiles.stored_ofEntity vs mem kind []
    have rows := (before.there.draw (Schema.sequenceOf t.name)).rowsOf_addRow compiles mem mem
      ((stored vs t).entityRow vs m.hierarchy attributes n)
    have none : (db.rowsOf t.name).find? ((stored vs t).carries vs attributes) = none := by
      rw [List.find?_eq_none]
      intro row hrow
      rw [new row hrow]
      decide
    have carried : (stored vs t).carries vs attributes ((stored vs t).entityRow vs m.hierarchy attributes n) = true :=
      StoredTable.entityRow_carries ofEntity ideal fits castable
    have number : (stored vs t).idOf? ((stored vs t).entityRow vs m.hierarchy attributes n) = some n :=
      StoredTable.entityRow_id ofEntity n
    rw [if_pos rfl] at rows
    rw [rows, List.find?_append, show (db.draw (Schema.sequenceOf t.name)).rowsOf t.name = db.rowsOf t.name from rfl,
      none, Option.none_or, List.find?_singleton, carried]
    exact number

omit mem in
theorem rowsOf (ideal : vs.Ideal) (mem : t ∈ m.tables) (kind : t.kind = .entity) (before : Consistent vs m db)
    (fits : (stored vs t).Fits m.hierarchy attributes)
    (castable : (stored vs t).Castable vs m.hierarchy attributes) {u : Table} (hu : u ∈ m.tables) {row : Cells V}
    (hrow : row ∈ db'.rowsOf u.name) :
    row ∈ db.rowsOf u.name ∨ u = t ∧ (stored vs t).carries vs attributes row = true := by
  cases upserted with
  | found first number => exact .inl hrow
  | added new next left =>
    have rows := (before.there.draw (Schema.sequenceOf t.name)).rowsOf_addRow compiles mem hu
      ((stored vs t).entityRow vs m.hierarchy attributes n)
    rw [rows] at hrow
    split at hrow
    · next eq =>
      rcases List.mem_append.1 hrow with old | new
      · exact .inl old
      · rw [List.mem_singleton.1 new]
        have ofEntity := compiles.stored_ofEntity vs mem kind []
        exact .inr ⟨eq, StoredTable.entityRow_carries ofEntity ideal fits castable⟩
    · exact .inl hrow

theorem of_number (before : Consistent vs m db) {k : Int} (number : db.numberOf vs t.name attributes = some k) :
    n = k ∧ db' = db ∧ report' = { report with rowsReused := report.rowsReused + 1 } := by
  rw [before.there.numberOf compiles mem] at number
  obtain ⟨row, first, number⟩ := Option.bind_eq_some_iff.1 number
  cases upserted with
  | found first' number' =>
    obtain rfl := Option.some.inj (first.symm.trans first')
    exact ⟨Option.some.inj (number'.symm.trans number), rfl, rfl⟩
  | added new next left =>
    have carried : (stored vs t).carries vs attributes row = true := List.find?_some first
    rw [new row (List.mem_of_find?_eq_some first)] at carried
    cases carried

end Upserted

namespace Refused

variable {enforce : Bool} {path : NodePath} {e : LoadError} (refused : Refused vs m enforce path t attributes db e db')
include refused

omit compiles mem in
theorem grows : db.Grows db' := by
  cases refused with
  | dangling fits castable new next left asked broken => exact .draw db _
  | _ => exact .refl db

theorem consistent (kind : t.kind = .entity) (before : Consistent vs m db) : Consistent vs m db' := by
  cases refused with
  | dangling fits castable new next left asked broken => exact before.draw compiles mem kind next left
  | _ => exact before

theorem not_of_number (kind : t.kind = .entity) (before : Consistent vs m db)
    (fits : (stored vs t).Fits m.hierarchy attributes) {k : Int}
    (number : db.numberOf vs t.name attributes = some k) : False := by
  rw [before.there.numberOf compiles mem] at number
  obtain ⟨row, first, number⟩ := Option.bind_eq_some_iff.1 number
  have carried : (stored vs t).carries vs attributes row = true := List.find?_some first
  have inside := List.mem_of_find?_eq_some first
  cases refused with
  | unfit carried unknown => exact unknown (fits _ carried)
  | unreadable fits bad => exact bad (StoredTable.castable_of_carries (compiles.stored_ofEntity vs mem kind []) carried)
  | exhausted fits castable new next reached =>
    rw [new row inside] at carried
    cases carried
  | dangling fits castable new next left asked broken =>
    rw [new row inside] at carried
    cases carried

end Refused

end TreeStore
