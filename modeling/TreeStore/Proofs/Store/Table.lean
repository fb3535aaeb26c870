import TreeStore.Proofs.Outcome
import TreeStore.Proofs.Schema.Creatable
import TreeStore.Store.Database

/-! Stored tables: columns found by name, the cells of a row by column, and the table that a definition
describes. -/

namespace TreeStore

namespace StoredTable

variable {V : Type} {t : StoredTable V}

def Distinct (t : StoredTable V) : Prop := (t.columns.map (Text.lower ·.name)).Nodup

theorem Distinct.column_unique (distinct : t.Distinct) {i j : Nat} {c d : Column}
    (hc : t.columns[i]? = some c) (hd : t.columns[j]? = some d) (same : sameName c.name d.name = true) :
    i = j := by
  have left : (t.columns.map (Text.lower ·.name))[i]? = some (Text.lower c.name) := by simp [hc]
  have right : (t.columns.map (Text.lower ·.name))[j]? = some (Text.lower d.name) := by simp [hd]
  have bound : i < (t.columns.map (Text.lower ·.name)).length := (List.getElem?_eq_some_iff.1 left).1
  exact (List.getElem?_inj bound distinct).1 (by rw [left, right, sameName_iff.1 same])

theorem position?_eq (distinct : t.Distinct) {i : Nat} {c : Column} (hc : t.columns[i]? = some c)
    {name : String} (same : sameName c.name name = true) : t.position? name = some i := by
  obtain ⟨bound, eq⟩ := List.getElem?_eq_some_iff.1 hc
  rw [position?, List.findIdx?_eq_some_iff_getElem]
  refine ⟨bound, by rw [eq]; exact same, fun j before other => ?_⟩
  have lower : sameName c.name t.columns[j].name = true :=
    sameName_iff.2 ((sameName_iff.1 same).trans (sameName_iff.1 other).symm)
  have equal := distinct.column_unique hc (List.getElem?_eq_getElem (by omega)) lower
  omega

theorem column?_eq (distinct : t.Distinct) {c : Column} (mem : c ∈ t.columns) {name : String}
    (same : sameName c.name name = true) : t.column? name = some c := by
  cases found : t.column? name with
  | none => exact absurd same (List.find?_eq_none.1 found c mem)
  | some d =>
    have other : sameName d.name name = true :=
      List.find?_some (p := fun c : Column => sameName c.name name) found
    obtain ⟨i, hc⟩ := List.getElem?_of_mem mem
    obtain ⟨j, hd⟩ := List.getElem?_of_mem (List.mem_of_find?_eq_some found)
    obtain rfl := distinct.column_unique hc hd
      (sameName_iff.2 ((sameName_iff.1 same).trans (sameName_iff.1 other).symm))
    rw [hc] at hd
    exact hd.symm

theorem position?_isSome {name : String} :
    (t.position? name).isSome = true ↔ ∃ c ∈ t.columns, sameName c.name name = true := by
  rw [position?, List.findIdx?_isSome, List.any_eq_true]

theorem column?_isSome {name : String} :
    (t.column? name).isSome = true ↔ ∃ c ∈ t.columns, sameName c.name name = true := by
  rw [column?, List.find?_isSome]

theorem cell_eq (distinct : t.Distinct) {i : Nat} {c : Column} (hc : t.columns[i]? = some c)
    {name : String} (same : sameName c.name name = true) (row : Cells V) :
    t.cell row name = row.cell i := by
  rw [cell, position?_eq distinct hc same, Option.bind_some]

theorem position?_same {a b : String} (same : sameName a b = true) : t.position? a = t.position? b := by
  have eq : (fun c : Column => sameName c.name a) = fun c : Column => sameName c.name b := by
    funext c
    rw [Bool.eq_iff_iff, sameName_iff, sameName_iff, sameName_iff.1 same]
  rw [position?, position?, eq]

theorem cell_same {a b : String} (same : sameName a b = true) (row : Cells V) :
    t.cell row a = t.cell row b := by
  rw [cell, cell, position?_same same]

theorem cell_map (distinct : t.Distinct) (f : Column → Option (Cell V)) {c : Column} (mem : c ∈ t.columns)
    {name : String} (same : sameName c.name name = true) : t.cell (t.columns.map f) name = f c := by
  obtain ⟨i, hc⟩ := List.getElem?_of_mem mem
  rw [cell_eq distinct hc same, Cells.cell, List.getElem?_map, hc]
  rfl

theorem row_ext (distinct : t.Distinct) {row row' : Cells V} (width : row.length = t.columns.length)
    (width' : row'.length = t.columns.length)
    (agree : ∀ c ∈ t.columns, t.cell row c.name = t.cell row' c.name) : row = row' := by
  refine List.ext_getElem (width.trans width'.symm) fun i h h' => ?_
  have bound : i < t.columns.length := width ▸ h
  have hc : t.columns[i]? = some t.columns[i] := List.getElem?_eq_getElem bound
  have cells := agree t.columns[i] (List.getElem_mem bound)
  rw [cell_eq distinct hc (sameName_self _), cell_eq distinct hc (sameName_self _)] at cells
  simpa [Cells.cell, h, h'] using cells

end StoredTable

namespace Database

variable {V : Type} (vs : ValueSystem V)

theorem hasRepeated_eq_false {names : List String} :
    hasRepeated names = false ↔ (names.map Text.lower).Nodup := by
  induction names with
  | nil => simp [hasRepeated]
  | cons n rest ih =>
    simp only [hasRepeated, Bool.or_eq_false_iff, ih, List.map_cons, List.nodup_cons, List.mem_map,
      List.any_eq_false, sameName_iff]
    refine and_congr_left fun _ => ⟨fun h ⟨x, hx, same⟩ => h x hx same.symm, fun h x hx same => ?_⟩
    exact h ⟨x, hx, same.symm⟩

def catalogType (type : String) : String := (vs.typeName? type).getD type

def stored (t : Table) : StoredTable V where
  name := t.name
  columns := t.columns.map fun c => { c with type := catalogType vs c.type }
  primaryKey := t.primaryKey

theorem tableOf_eq {t : Table} (known : ∀ c ∈ t.columns, (vs.typeName? c.type).isSome = true) :
    tableOf vs t = .ok (stored vs t) := by
  unfold tableOf
  rw [bind_eq_ok]
  refine ⟨(stored vs t).columns, ?_, rfl⟩
  rw [mapM_eq_ok, stored, List.forall₂_map_right_iff, List.forall₂_same]
  intro c hc
  obtain ⟨type, found⟩ := Option.isSome_iff_exists.1 (known c hc)
  simp only [found, catalogType, Option.getD_some]
  rfl

theorem stored_distinct {t : Table} (distinct : (t.columns.map (Text.lower ·.name)).Nodup) :
    (stored vs t).Distinct := by
  simpa only [StoredTable.Distinct, stored, List.map_map, Function.comp_def] using distinct

theorem mem_stored_columns {t : Table} {c : Column} : c ∈ (stored vs t).columns ↔
    ∃ d ∈ t.columns, c = { d with type := catalogType vs d.type } := by
  simp only [stored, List.mem_map, eq_comm]

theorem stored_keyColumns {t : Table} (key : t.HasIdKey) : (stored vs t).keyColumns = [Schema.idColumn] := by
  simp only [StoredTable.keyColumns, stored, key.1, List.isEmpty_nil, if_true, List.filter_map,
    List.map_map, Function.comp_def]
  exact key.2

theorem stored_hasIdKey {t : Table} (key : t.HasIdKey) : (stored vs t).hasIdKey = true := by
  rw [StoredTable.hasIdKey, stored_keyColumns vs key]
  exact sameName_self _

end Database

end TreeStore
