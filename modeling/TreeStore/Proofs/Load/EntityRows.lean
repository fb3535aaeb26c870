import TreeStore.Proofs.Load.Matching
import TreeStore.Proofs.Store.Growth

/-! What the query for a node finds in an entity's table, and what inserting a node does: it adds a row that
carries the node's attributes under the next number of the table's sequence, unless a value cannot be read, a
reference would be broken or the sequence has no number left. -/

namespace TreeStore

open Loader

def castOperand (text type : String) : Operand := { param := .text text, type? := some type }

def nodeValues (attributes : TextMap String) (columns : List CatalogColumn) : List (String × Option Operand) :=
  columns.map fun c => (c.name, (valueFor? attributes c).map (castOperand · c.type))

def givenValues (values : List (String × Option Operand)) : List (String × Operand) :=
  values.filterMap fun v => v.2.map (v.1, ·)

theorem columnValues_plain {columns : List CatalogColumn} (plain : ∀ c ∈ columns, isPlainType c.type = true)
    (path : NodePath) (attributes : TextMap String) :
    columnValues path attributes columns = .ok (nodeValues attributes columns) := by
  induction columns with
  | nil => rfl
  | cons c rest ih =>
    have tail := ih fun d hd => plain d (List.mem_cons_of_mem _ hd)
    rw [columnValues, tail]
    cases value : valueFor? attributes c with
    | none =>
      simp only [ok_bind, nodeValues, List.map_cons, value, Option.map_none]
      rfl
    | some text =>
      simp only [plain c List.mem_cons_self, if_true, nodeValues, List.map_cons, value, Option.map_some]
      rfl

namespace StoredTable

variable {V : Type} (vs : ValueSystem V) (h : Hierarchy) (t : StoredTable V)

def ownColumns : List Column := t.columns.filter fun c => h.isAttributeName t.name c.name

theorem attributeColumns_eq :
    attributeColumns h t.name (t.columns.map Column.inCatalog) = (t.ownColumns h).map Column.inCatalog := by
  rw [attributeColumns, ownColumns, List.filter_map]
  rfl

def attributeCell (attributes : TextMap String) (c : Column) : Option (Cell V) :=
  if h.isAttributeName t.name c.name then
    (valueFor? attributes c.inCatalog).bind fun text => (vs.ofText? c.type text).map .value
  else none

def entityRow (attributes : TextMap String) (n : Int) : Cells V :=
  t.columns.map fun c => if sameName c.name Schema.idColumn then some (.id n) else t.attributeCell vs h attributes c

/-- The rows of an entity's table: each has a number of its own that was drawn before the next one, and no two
agree. -/
structure EntityRows (next : Int) : Prop where
  numbered : ∀ row ∈ t.rows, ∃ n, t.idOf? row = some n ∧ 1 ≤ n ∧ n < next
  apart : (t.rows.map t.idOf?).Nodup
  holds : ∀ row ∈ t.rows, t.Holds row
  hides : ∀ row ∈ t.rows, t.Hides h row
  distinct : t.rows.Pairwise fun r r' => ¬ t.Agree vs r r'

variable {vs h} {t : StoredTable V} {sequence : String} {attributes : TextMap String} {row : Cells V} {next : Int}

theorem idOf?_eq_some {n : Int} : t.idOf? row = some n ↔ t.cell row Schema.idColumn = some (.id n) := by
  unfold idOf?
  split
  · next k eq => simp [eq]
  · next other => exact ⟨(nomatch ·), fun eq => absurd eq (other n)⟩

/-! ### The query for a node -/

theorem mem_ownColumns {c : Column} : c ∈ t.ownColumns h ↔ c ∈ t.columns ∧ h.isAttributeName t.name c.name = true :=
  List.mem_filter

def nodeQuery (h : Hierarchy) (t : StoredTable V) (attributes : TextMap String) : Select :=
  selectId t.name (nodeValues attributes ((t.ownColumns h).map Column.inCatalog))

section Query

variable (ofEntity : t.OfEntity sequence)
include ofEntity

theorem OfEntity.column? {c : Column} (mem : c ∈ t.columns) : t.column? c.name = some c :=
  column?_eq ofEntity.distinct mem (sameName_self _)

theorem OfEntity.id_mem : ∃ c ∈ t.columns, c.name = Schema.idColumn := by
  obtain ⟨c, rest, eq, name, _⟩ := ofEntity.columns
  exact ⟨c, eq ▸ List.mem_cons_self, name⟩

theorem OfEntity.keyColumns : t.keyColumns = [Schema.idColumn] := by
  obtain ⟨c, rest, eq, name, key, _, _, plain⟩ := ofEntity.columns
  have none : rest.filter (·.primaryKey) = [] := by
    rw [List.filter_eq_nil_iff]
    intro d hd
    simp [(plain d hd).2.1]
  rw [StoredTable.keyColumns, ofEntity.noKey, eq]
  simp [key, none, name]

theorem conditionOf_holds {c : Column} (mem : c ∈ t.columns) :
    Database.holds vs t row (conditionOf (c.name, (valueFor? attributes c.inCatalog).map (castOperand · c.type))) =
      holdsValue vs attributes c (t.cell row c.name) := by
  unfold holdsValue
  cases valueFor? attributes c.inCatalog with
  | none => rfl
  | some text =>
    simp only [conditionOf, Option.map_some, Database.holds, ofEntity.column? mem, Option.bind_some,
      Cell.ofOperand?, castOperand]
    cases vs.ofText? c.type text <;> rfl

theorem conditionOf_testable {c : Column} (mem : c ∈ t.columns) :
    Database.Testable vs t
        (conditionOf (c.name, (valueFor? attributes c.inCatalog).map (castOperand · c.type))) ↔
      ∀ text, valueFor? attributes c.inCatalog = some text → (vs.ofText? c.type text).isSome = true := by
  cases valueFor? attributes c.inCatalog with
  | none =>
    simp only [conditionOf, Option.map_none, Database.Testable, ofEntity.column? mem, Option.isSome_some]
    simp
  | some text =>
    simp only [conditionOf, Option.map_some, Database.Testable, ofEntity.column? mem, Cell.ofOperand?, castOperand,
      Option.isSome_map, Option.some.injEq]
    constructor
    · rintro ⟨_, rfl, read⟩ _ rfl
      exact read
    · intro all
      exact ⟨c, rfl, all text rfl⟩

theorem castable_iff : t.Castable vs h attributes ↔
    ∀ c ∈ (nodeQuery h t attributes).conditions,
      Database.Testable vs t c := by
  simp only [nodeQuery, selectId, nodeValues, List.map_map, List.forall_mem_map, Function.comp_apply]
  constructor
  · intro castable c mem
    obtain ⟨mem, own⟩ := mem_ownColumns.1 mem
    exact (conditionOf_testable ofEntity mem).2 (castable c mem own)
  · intro all c mem own
    exact (conditionOf_testable ofEntity mem).1 (all c (mem_ownColumns.2 ⟨mem, own⟩))

theorem Fits.conditions_hold (fits : t.Fits h attributes) (hides : t.Hides h row) :
    (nodeQuery h t attributes).conditions.all
      (Database.holds vs t row) = t.carries vs attributes row := by
  rw [Bool.eq_iff_iff, fits.carries_iff ofEntity hides, List.all_eq_true]
  simp only [nodeQuery, selectId, nodeValues, List.map_map, List.forall_mem_map, Function.comp_apply]
  constructor
  · intro all c mem own
    have held := all c (mem_ownColumns.2 ⟨mem, own⟩)
    rwa [← conditionOf_holds ofEntity mem]
  · intro all c mem
    obtain ⟨mem, own⟩ := mem_ownColumns.1 mem
    rw [← all c mem own]
    exact conditionOf_holds ofEntity mem

theorem nodeQuery_selected (attributes : TextMap String) : Database.checkSelection t
    (nodeQuery h t attributes) = .ok () := by
  refine Database.checkSelection_ok (fun names eq n hn => ?_) fun n hn => by cases hn
  cases eq
  obtain rfl := List.mem_singleton.1 hn
  obtain ⟨c, mem, name⟩ := ofEntity.id_mem
  exact StoredTable.column?_isSome.2 ⟨c, mem, name ▸ sameName_self _⟩

/-- The query for a node gives the number of the first row that carries the node's attributes. -/
theorem select_node {db : Database V} (found : db.table? t.name = some t) (fits : t.Fits h attributes)
    (castable : t.Castable vs h attributes) (hides : ∀ row ∈ t.rows, t.Hides h row) :
    db.select vs (nodeQuery h t attributes) =
      .ok ((t.rows.find? (t.carries vs attributes)).toList.map fun row =>
        [(t.cell row Schema.idColumn).map (Cell.toText vs)]) := by
  have same : t.rows.find? (fun row =>
      (nodeQuery h t attributes).conditions.all
        (Database.holds vs t row)) = t.rows.find? (t.carries vs attributes) := by
    have each : ∀ row ∈ t.rows, (nodeQuery h t attributes).conditions.all (Database.holds vs t row) =
        t.carries vs attributes row := fun row mem => fits.conditions_hold ofEntity (hides row mem)
    rw [← List.head?_filter, ← List.head?_filter, List.filter_congr each]
  rw [Database.select_first vs (q := nodeQuery h t attributes) found (nodeQuery_selected ofEntity attributes)
    ((castable_iff ofEntity).1 castable) rfl rfl, same]
  rfl

theorem select_unreadable {db : Database V} (found : db.table? t.name = some t)
    (bad : ¬ t.Castable vs h attributes) :
    db.select vs (nodeQuery h t attributes) =
      Database.failure .execution := by
  have untestable : ∃ c ∈ (nodeQuery h t attributes).conditions, ¬ Database.Testable vs t c := by
    rw [castable_iff ofEntity] at bad
    simpa using bad
  exact Database.select_error vs (q := nodeQuery h t attributes) found (nodeQuery_selected ofEntity attributes)
    untestable

end Query

theorem idOfRow_ok {n : Int} (numbered : t.idOf? row = some n) (sign : 1 ≤ n)
    (bound : n ≤ Database.endOfSequence) :
    idOfRow t.name [(t.cell row Schema.idColumn).map (Cell.toText vs)] = .ok n := by
  have read : Numeral.int64? (toString n) = some n :=
    Numeral.int64_toString (by omega) (by unfold Database.endOfSequence at bound; omega)
  simp only [idOfRow, idOf?_eq_some.1 numbered, Option.map_some, Cell.toText, List.head?_cons, Option.join_some,
    Option.bind_some, read]

end StoredTable

end TreeStore
