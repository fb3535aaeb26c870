import TreeStore.Proofs.Store.Growth

/-! Tables of ids, whose rows hold ids or nothing. Asking for given ids, and for null in all other columns,
finds the one row with just these ids; inserting the given ids adds that row. -/

namespace TreeStore

def idRow {V : Type} (ids : List (Option Int)) : Cells V := ids.map (·.map .id)

def idFor (ids : List (String × Int)) (c : Column) : Option Int :=
  (ids.find? (sameName ·.1 c.name)).map (·.2)

theorem idFor_eq {ids : List (String × Int)} (distinct : (ids.map (Text.lower ·.1)).Nodup) {v : String × Int}
    (mem : v ∈ ids) {c : Column} (same : sameName v.1 c.name = true) : idFor ids c = some v.2 := by
  cases found : ids.find? (sameName ·.1 c.name) with
  | none => exact absurd same (List.find?_eq_none.1 found v mem)
  | some w =>
    have other : sameName w.1 c.name = true :=
      List.find?_some (p := fun w : String × Int => sameName w.1 c.name) found
    have keys : Text.lower w.1 = Text.lower v.1 := (sameName_iff.1 other).trans (sameName_iff.1 same).symm
    have equal := List.inj_on_of_nodup_map distinct (List.mem_of_find?_eq_some found) mem keys
    rw [idFor, found, equal]
    rfl

namespace StoredTable

variable {V : Type} {t : StoredTable V}

/-- A table of ids: no keys, no defaults. -/
structure OfIds (t : StoredTable V) : Prop where
  distinct : t.Distinct
  noKey : t.keyColumns = []
  plain : ∀ c ∈ t.columns, c.primaryKey = false ∧ c.default? = none

/-- Given ids and columns that are to be null make up a row of a table. -/
structure Covers (t : StoredTable V) (ids : List (String × Int)) (nulls : List String) : Prop where
  some : ids ≠ []
  distinct : (ids.map (Text.lower ·.1)).Nodup
  known : ∀ v ∈ ids, ∃ c ∈ t.columns, sameName v.1 c.name = true
  nulls : ∀ n, n ∈ nulls ↔ ∃ c ∈ t.columns, c.name = n ∧ idFor ids c = none

def idsRow (t : StoredTable V) (ids : List (String × Int)) : Cells V := idRow (t.columns.map (idFor ids))

theorem idsRow_cell (distinct : t.Distinct) (ids : List (String × Int)) {c : Column} (mem : c ∈ t.columns)
    {name : String} (same : sameName c.name name = true) :
    t.cell (t.idsRow ids) name = (idFor ids c).map .id := by
  rw [idsRow, idRow, List.map_map]
  exact cell_map distinct _ mem same

/-! ### An id for every column -/

section Named

variable {ids : List (String × Int)} (distinct : t.Distinct) (names : t.columns.map (·.name) = ids.map (·.1))
include names

theorem column_of_id {v : String × Int} (mem : v ∈ ids) : ∃ c ∈ t.columns, c.name = v.1 := by
  have listed : v.1 ∈ t.columns.map (·.name) := by
    rw [names]
    exact List.mem_map_of_mem mem
  exact List.mem_map.1 listed

include distinct

theorem ids_distinct : (ids.map (Text.lower ·.1)).Nodup := by
  have lowered := congrArg (List.map Text.lower) names
  rw [List.map_map, List.map_map] at lowered
  rw [Distinct] at distinct
  exact lowered ▸ distinct

theorem idFor_column {c : Column} (mem : c ∈ t.columns) : (idFor ids c).isSome = true := by
  have listed : c.name ∈ ids.map (·.1) := by
    rw [← names]
    exact List.mem_map_of_mem mem
  obtain ⟨v, hv, name⟩ := List.mem_map.1 listed
  rw [idFor_eq (ids_distinct distinct names) hv (name ▸ sameName_self v.1)]
  rfl

theorem covers_named (some : ids ≠ []) : t.Covers ids [] where
  some := some
  distinct := ids_distinct distinct names
  known := fun v mem => by
    obtain ⟨c, hc, name⟩ := column_of_id names mem
    exact ⟨c, hc, name ▸ sameName_self c.name⟩
  nulls := fun n => by
    constructor
    · intro mem
      cases mem
    · rintro ⟨c, hc, _, none⟩
      have some := idFor_column distinct names hc
      rw [none] at some
      cases some

theorem idsRow_named : t.idsRow ids = idRow (ids.map fun v => some v.2) := by
  have byName : t.columns.map (idFor ids) = (ids.map (·.1)).map fun n => (ids.find? (sameName ·.1 n)).map (·.2) := by
    rw [← names, List.map_map]
    rfl
  rw [idsRow, byName, List.map_map]
  refine congrArg idRow (List.map_congr_left fun v mem => ?_)
  exact idFor_eq (c := { name := v.1, type := "" }) (ids_distinct distinct names) mem (sameName_self v.1)

end Named

end StoredTable

namespace Database

variable {V : Type} (vs : ValueSystem V)

def idOperand (n : Int) : Operand := { param := .int n }

def idConditions (ids : List (String × Int)) (nulls : List String) : List Condition :=
  ids.map (fun v => .equals v.1 (idOperand v.2)) ++ nulls.map .isNull

def idQuery (table : String) (ids : List (String × Int)) (nulls : List String) : Select where
  selection := .one
  table := table
  conditions := idConditions ids nulls
  firstOnly := true

variable {t : StoredTable V} {ids : List (String × Int)} {nulls : List String}

theorem idConditions_testable (covers : t.Covers ids nulls) :
    ∀ c ∈ idConditions ids nulls, Testable vs t c := by
  intro c mem
  rcases List.mem_append.1 mem with mem | mem
  · obtain ⟨v, hv, rfl⟩ := List.mem_map.1 mem
    obtain ⟨d, hd, same⟩ := covers.known v hv
    have found : (t.column? v.1).isSome = true :=
      StoredTable.column?_isSome.2 ⟨d, hd, sameName_comm v.1 d.name ▸ same⟩
    obtain ⟨e, he⟩ := Option.isSome_iff_exists.1 found
    exact ⟨e, he, rfl⟩
  · obtain ⟨n, hn, rfl⟩ := List.mem_map.1 mem
    obtain ⟨d, hd, name, _⟩ := (covers.nulls n).1 hn
    exact StoredTable.column?_isSome.2 ⟨d, hd, name ▸ sameName_self _⟩

theorem cell_idRow (found : List (Option Int)) (name : String) :
    ∃ x : Option Int, t.cell (idRow found) name = x.map .id := by
  rw [StoredTable.cell]
  cases t.position? name with
  | none => exact ⟨none, rfl⟩
  | some i =>
    refine ⟨found[i]?.join, ?_⟩
    rw [Option.bind_some, Cells.cell, idRow, List.getElem?_map]
    cases found[i]? with
    | none => rfl
    | some x => cases x <;> rfl

theorem holds_id (distinct : t.Distinct) {c : Column} (mem : c ∈ t.columns) {v : String × Int}
    (same : sameName v.1 c.name = true) (found : List (Option Int)) :
    holds vs t (idRow found) (.equals v.1 (idOperand v.2)) = true ↔ t.cell (idRow found) c.name = some (.id v.2) := by
  have column : t.column? v.1 = some c := StoredTable.column?_eq distinct mem (sameName_comm v.1 c.name ▸ same)
  obtain ⟨x, cell⟩ := cell_idRow (t := t) found c.name
  rw [holds, column, StoredTable.cell_same same, cell]
  cases x <;> simp [Cell.ofOperand?, idOperand, Cell.same]

/-- The conditions hold of the row of the given ids, and of no other row of ids. -/
theorem idConditions_hold (distinct : t.Distinct) (covers : t.Covers ids nulls) {found : List (Option Int)}
    (width : found.length = t.columns.length) :
    (idConditions ids nulls).all (holds vs t (idRow found)) = true ↔ idRow found = t.idsRow ids := by
  rw [List.all_eq_true]
  constructor
  · intro hold
    refine StoredTable.row_ext distinct (by simpa [idRow] using width) (by simp [StoredTable.idsRow, idRow]) ?_
    intro c hc
    rw [StoredTable.idsRow_cell distinct ids hc (sameName_self _)]
    cases given : ids.find? (sameName ·.1 c.name) with
    | none =>
      have absent : idFor ids c = none := by rw [idFor, given]; rfl
      have null : c.name ∈ nulls := (covers.nulls c.name).2 ⟨c, hc, rfl, absent⟩
      have holds := hold (.isNull c.name) (List.mem_append_right _ (List.mem_map_of_mem null))
      rw [absent]
      exact Option.isNone_iff_eq_none.1 holds
    | some v =>
      have same : sameName v.1 c.name = true :=
        List.find?_some (p := fun v : String × Int => sameName v.1 c.name) given
      have mem : v ∈ ids := List.mem_of_find?_eq_some given
      have holds := hold (.equals v.1 (idOperand v.2)) (List.mem_append_left _ (List.mem_map.2 ⟨v, mem, rfl⟩))
      rw [idFor_eq covers.distinct mem same]
      exact (holds_id vs distinct hc same found).1 holds
  · intro eq d mem
    rcases List.mem_append.1 mem with mem | mem
    · obtain ⟨v, hv, rfl⟩ := List.mem_map.1 mem
      obtain ⟨c, hc, same⟩ := covers.known v hv
      refine (holds_id vs distinct hc same found).2 ?_
      rw [eq, StoredTable.idsRow_cell distinct ids hc (sameName_self _), idFor_eq covers.distinct hv same]
      rfl
    · obtain ⟨n, hn, rfl⟩ := List.mem_map.1 mem
      obtain ⟨c, hc, rfl, absent⟩ := (covers.nulls n).1 hn
      rw [holds, eq, StoredTable.idsRow_cell distinct ids hc (sameName_self _), absent]
      rfl

structure IdRows (width : Nat) (rows : List (Cells V)) : Prop where
  made : ∀ row ∈ rows, ∃ ids : List (Option Int), ids.length = width ∧ row = idRow ids
  distinct : rows.Nodup

theorem select_ids {db : Database V} {name : String} (found : db.table? name = some t) (ofIds : t.OfIds)
    (rows : IdRows t.columns.length t.rows) (covers : t.Covers ids nulls) :
    ∃ answer : List Row, db.select vs (idQuery name ids nulls) = .ok answer ∧
      (answer.isEmpty = true ↔ t.idsRow ids ∉ t.rows) := by
  have selected := checkSelection_ok (t := t) (q := idQuery name ids nulls) (fun _ eq => by cases eq)
    (by simp [idQuery])
  refine ⟨_, select_first vs found selected (idConditions_testable vs covers) rfl rfl, ?_⟩
  rw [List.isEmpty_map, List.isEmpty_iff, Option.toList_eq_nil_iff, List.find?_eq_none]
  constructor
  · intro none mem
    obtain ⟨made, width, eq⟩ := rows.made _ mem
    have hold := (idConditions_hold vs ofIds.distinct covers width).2 eq.symm
    exact none _ mem (eq ▸ hold)
  · intro absent row mem hold
    obtain ⟨made, width, rfl⟩ := rows.made _ mem
    exact absent ((idConditions_hold vs ofIds.distinct covers width).1 hold ▸ mem)

/-! ### Inserting ids -/

def HasId (db : Database V) (table : String) (n : Int) : Prop :=
  ∃ u, db.table? table = some u ∧ ∃ row ∈ u.rows, u.cell row Schema.idColumn = some (.id n)

theorem HasId.grows {db db' : Database V} (grows : db.Grows db') {table : String} {n : Int}
    (there : db.HasId table n) : db'.HasId table n := by
  obtain ⟨u, found, row, mem, cell⟩ := there
  obtain ⟨more, eq⟩ := grows table
  rw [found] at eq
  exact ⟨_, eq, row, List.mem_append_left _ mem, cell⟩

/-- Given ids are those of rows that their columns reference, and none is missing that must not be. -/
structure Refers (db : Database V) (t : StoredTable V) (ids : List (String × Int)) : Prop where
  filled : ∀ c ∈ t.columns, c.notNull = true → (idFor ids c).isSome = true
  there : ∀ c ∈ t.columns, ∀ target, c.references? = some target → ∀ n, idFor ids c = some n → db.HasId target n

theorem keepsReferences_ids {db : Database V} (distinct : t.Distinct) (refers : db.Refers t ids) :
    db.keepsReferences vs t (t.idsRow ids) = true := by
  rw [keepsReferences, List.all_eq_true]
  intro c hc
  rw [StoredTable.idsRow_cell distinct ids hc (sameName_self _)]
  cases reference : c.references? with
  | none => rfl
  | some target =>
    cases given : idFor ids c with
    | none => rfl
    | some n =>
      obtain ⟨u, found, row, mem, cell⟩ := refers.there c hc target reference n given
      obtain ⟨i, at_, cell⟩ := Option.bind_eq_some_iff.1 cell
      simp only [Option.map_some, found, at_, Option.any_some, List.any_eq_true]
      exact ⟨row, mem, by simp [cell, Cell.same]⟩

theorem keepsKeys_ids {db : Database V} (ofIds : t.OfIds) (refers : db.Refers t ids) :
    keepsKeys vs t (t.idsRow ids) = true := by
  have filled : (t.columns.all fun c => !(c.notNull || c.primaryKey) || (t.cell (t.idsRow ids) c.name).isSome) =
      true := by
    rw [List.all_eq_true]
    intro c hc
    rw [StoredTable.idsRow_cell ofIds.distinct ids hc (sameName_self _), (ofIds.plain c hc).1, Bool.or_false]
    cases must : c.notNull with
    | false => rfl
    | true => simpa using refers.filled c hc must
  unfold keepsKeys
  rw [ofIds.noKey, filled]
  rfl

theorem insert_ids (enforce : Bool) {db : Database V} {name : String} (found : db.table? name = some t)
    (ofIds : t.OfIds) (covers : t.Covers ids nulls) (refers : db.Refers t ids) :
    db.insert vs enforce ⟨name, ids.map fun v => (v.1, idOperand v.2)⟩ =
      (.ok (), db.addRow t.name (t.idsRow ids)) := by
  have given : ∀ c : Column, (ids.map fun v => (v.1, idOperand v.2)).find? (sameName ·.1 c.name) =
      (ids.find? (sameName ·.1 c.name)).map fun v => (v.1, idOperand v.2) := fun c => by
    rw [List.find?_map]
    rfl
  have readable : ∀ c ∈ t.columns, Readable vs (ids.map fun v => (v.1, idOperand v.2)) c := by
    intro c _ v eq
    rw [given c] at eq
    obtain ⟨w, _, rfl⟩ := Option.map_eq_some_iff.1 eq
    rfl
  have cells : t.columns.map (givenCell vs (ids.map fun v => (v.1, idOperand v.2))) = t.idsRow ids := by
    rw [StoredTable.idsRow, idRow, List.map_map]
    refine List.map_congr_left fun c _ => ?_
    rw [givenCell, given c, Function.comp_apply, idFor]
    cases ids.find? (sameName ·.1 c.name) <;> rfl
  have known : ((ids.map fun v => (v.1, idOperand v.2)).any fun v => (t.column? v.1).isNone) = false := by
    rw [List.any_map, List.any_eq_false]
    intro v hv
    obtain ⟨c, hc, same⟩ := covers.known v hv
    rw [Function.comp_apply, StoredTable.column?_eq ofIds.distinct hc (sameName_comm v.1 c.name ▸ same)]
    simp
  have nonempty : (ids.map fun v => (v.1, idOperand v.2)).isEmpty = false := by simpa using covers.some
  have row : db.rowOf vs ⟨name, ids.map fun v => (v.1, idOperand v.2)⟩ t =
      .ok (t.idsRow ids, db.sequences) := by
    rw [rowOf]
    simp only [known, nonempty, Bool.or_false, Bool.false_eq_true, if_false]
    rw [newRow_plain vs readable (fun c hc => (ofIds.plain c hc).2), cells]
  have keeps : (keepsKeys vs t (t.idsRow ids) && (!enforce || db.keepsReferences vs t (t.idsRow ids))) = true := by
    rw [keepsKeys_ids vs ofIds refers, keepsReferences_ids vs ofIds.distinct refers, Bool.or_true]
    rfl
  unfold insert
  simp only [found, insertInto, row]
  rw [if_pos keeps]

end Database

end TreeStore
