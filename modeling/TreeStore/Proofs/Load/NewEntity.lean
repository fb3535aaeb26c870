import TreeStore.Proofs.Load.EntityRows

/-! Inserting a node into an entity's table. -/

namespace TreeStore

open Loader

namespace StoredTable

variable {V : Type} {vs : ValueSystem V} {h : Hierarchy} {t : StoredTable V} {sequence : String}
  {attributes : TextMap String} {row : Cells V} {n : Int}

def nodeInsert (h : Hierarchy) (t : StoredTable V) (attributes : TextMap String) : Insert where
  table := t.name
  values := givenValues (nodeValues attributes ((t.ownColumns h).map Column.inCatalog))

theorem mem_nodeInsert {v : String × Operand} : v ∈ (nodeInsert h t attributes).values ↔
    ∃ c ∈ t.columns, h.isAttributeName t.name c.name = true ∧
      ∃ text, valueFor? attributes c.inCatalog = some text ∧ v = (c.name, castOperand text c.type) := by
  simp only [nodeInsert, givenValues, nodeValues, List.mem_filterMap, List.mem_map, Option.map_eq_some_iff]
  constructor
  · rintro ⟨_, ⟨_, ⟨c, mem, rfl⟩, rfl⟩, _, given, rfl⟩
    obtain ⟨mem, own⟩ := mem_ownColumns.1 mem
    obtain ⟨text, value, rfl⟩ := Option.map_eq_some_iff.1 given
    exact ⟨c, mem, own, text, value, rfl⟩
  · rintro ⟨c, mem, own, text, value, rfl⟩
    exact ⟨_, ⟨_, ⟨c, mem_ownColumns.2 ⟨mem, own⟩, rfl⟩, rfl⟩, _, by rw [value]; rfl, rfl⟩

section Row

variable (ofEntity : t.OfEntity sequence)
include ofEntity

theorem nodeInsert_find {c : Column} (mem : c ∈ t.columns) :
    (nodeInsert h t attributes).values.find? (sameName ·.1 c.name) =
      if h.isAttributeName t.name c.name then
        (valueFor? attributes c.inCatalog).map fun text => (c.name, castOperand text c.type)
      else none := by
  have only : ∀ v ∈ (nodeInsert h t attributes).values, sameName v.1 c.name = true →
      h.isAttributeName t.name c.name = true ∧
        ∃ text, valueFor? attributes c.inCatalog = some text ∧ v = (c.name, castOperand text c.type) := by
    intro v hv same
    obtain ⟨d, hd, own, text, value, rfl⟩ := mem_nodeInsert.1 hv
    obtain rfl := List.inj_on_of_nodup_map ofEntity.distinct hd mem (sameName_iff.1 same)
    exact ⟨own, text, value, rfl⟩
  cases found : (nodeInsert h t attributes).values.find? (sameName ·.1 c.name) with
  | some v =>
    obtain ⟨own, text, value, rfl⟩ := only v (List.mem_of_find?_eq_some found)
      (List.find?_some (p := fun v : String × Operand => sameName v.1 c.name) found)
    rw [if_pos own, value]
    rfl
  | none =>
    split
    · next own =>
      cases value : valueFor? attributes c.inCatalog with
      | none => rfl
      | some text =>
        have there := mem_nodeInsert.2 ⟨c, mem, own, text, value, rfl⟩
        have absent := List.find?_eq_none.1 found (c.name, castOperand text c.type) there
        rw [sameName_self] at absent
        exact absurd rfl absent
    · rfl

theorem nodeInsert_readable (castable : t.Castable vs h attributes) {c : Column} (mem : c ∈ t.columns) :
    Database.Readable vs (nodeInsert h t attributes).values c := by
  intro v found
  rw [nodeInsert_find ofEntity mem] at found
  split at found
  · next own =>
    obtain ⟨text, value, rfl⟩ := Option.map_eq_some_iff.1 found
    simpa [Cell.ofOperand?, castOperand] using castable c mem own text value
  · cases found

theorem nodeInsert_cell {c : Column} (mem : c ∈ t.columns) :
    Database.givenCell vs (nodeInsert h t attributes).values c = t.attributeCell vs h attributes c := by
  rw [Database.givenCell, nodeInsert_find ofEntity mem, attributeCell]
  split
  · rw [Option.bind_map]
    rfl
  · rfl

theorem nodeInsert_known (fits : t.Fits h attributes) (some : attributes.isEmpty = false) :
    ((nodeInsert h t attributes).values.isEmpty ||
      (nodeInsert h t attributes).values.any fun v => (t.column? v.1).isNone) = false := by
  rw [Bool.or_eq_false_iff]
  constructor
  · cases keys : attributes.entries with
    | nil => simp [TextMap.isEmpty, keys] at some
    | cons e rest =>
      have hk : e.1 ∈ attributes.keys := by simp [TextMap.keys, keys]
      obtain ⟨c, mem, own, same⟩ := fits e.1 hk
      have value : (valueFor? attributes c.inCatalog).isSome = true :=
        valueFor?_isSome.2 ⟨e.1, hk, Text.sameIgnoringCase_iff.2 (Text.sameIgnoringCase_iff.1 same).symm⟩
      obtain ⟨text, value⟩ := Option.isSome_iff_exists.1 value
      have there := mem_nodeInsert.2 ⟨c, mem, own, text, value, rfl⟩
      rw [Bool.eq_false_iff, ne_eq, List.isEmpty_iff]
      exact List.ne_nil_of_mem there
  · rw [List.any_eq_false]
    intro v hv
    obtain ⟨c, mem, _, text, _, rfl⟩ := mem_nodeInsert.1 hv
    simp [ofEntity.column? mem]

theorem OfEntity.split : ∃ c rest, t.columns = c :: rest ∧ c.name = Schema.idColumn ∧
    (∀ d ∈ rest, sameName d.name Schema.idColumn = false ∧ d.default? = none) ∧
    ∀ (h : Hierarchy) (attributes : TextMap String) (vs : ValueSystem V) (sequences : List (String × Int)),
      Database.newCell vs (nodeInsert h t attributes).values c sequences =
        match sequences.find? (sameName ·.1 sequence) with
        | some (_, n) =>
          if n < Database.endOfSequence then
            .ok (some (.id n), sequences.map fun s => if sameName s.1 sequence then (s.1, s.2 + 1) else s)
          else Database.failure .execution
        | none => Database.failure .execution := by
  obtain ⟨c, rest, eq, name, _, default, _, plain⟩ := ofEntity.columns
  have mem : c ∈ t.columns := eq ▸ List.mem_cons_self
  refine ⟨c, rest, eq, name, fun d hd => ⟨?_, (plain d hd).1⟩, fun h attributes vs sequences => ?_⟩
  · have distinct := ofEntity.distinct
    rw [Distinct, eq, List.map_cons, List.nodup_cons] at distinct
    rw [Bool.eq_false_iff]
    intro same
    refine distinct.1 (List.mem_map.2 ⟨d, hd, ?_⟩)
    rw [name, sameName_iff.1 same]
  · have notOwn : h.isAttributeName t.name c.name = false := by
      rw [Hierarchy.isAttributeName, name, Text.sameIgnoringCase_self]
      rfl
    have absent : (nodeInsert h t attributes).values.find? (sameName ·.1 c.name) = none := by
      rw [nodeInsert_find ofEntity mem, notOwn]
      rfl
    cases found : sequences.find? (sameName ·.1 sequence) with
    | none => simp only [Database.newCell, absent, default, found]
    | some s => simp only [Database.newCell, absent, default, found]

theorem nodeInsert_row {db : Database V} (castable : t.Castable vs h attributes)
    (next : db.next? sequence = some n) (left : n < Database.endOfSequence) :
    Database.newRow vs (nodeInsert h t attributes).values t.columns db.sequences =
      .ok (t.entityRow vs h attributes n, (db.draw sequence).sequences) := by
  obtain ⟨c, rest, eq, name, plain, first⟩ := ofEntity.split
  obtain ⟨⟨_, k⟩, drawn, rfl⟩ := Option.map_eq_some_iff.1 next
  have inside : ∀ d ∈ rest, d ∈ t.columns := fun d hd => eq ▸ List.mem_cons_of_mem c hd
  have others := Database.newRow_plain vs (fun d hd => nodeInsert_readable ofEntity castable (inside d hd))
    (fun d hd => (plain d hd).2) (db.draw sequence).sequences
  have cells : rest.map (Database.givenCell vs (nodeInsert h t attributes).values) =
      rest.map fun d => if sameName d.name Schema.idColumn then some (.id k) else t.attributeCell vs h attributes d :=
    List.map_congr_left fun d hd => by
      rw [(plain d hd).1, nodeInsert_cell ofEntity (inside d hd)]
      rfl
  have start := first h attributes vs db.sequences
  rw [drawn] at start
  simp only [if_pos left] at start
  rw [entityRow, eq, List.map_cons, ← cells, if_pos (name ▸ sameName_self _), Database.newRow, start]
  simp only [ok_bind]
  rw [show (db.sequences.map fun s => if sameName s.1 sequence then (s.1, s.2 + 1) else s) =
    (db.draw sequence).sequences from rfl, others]
  rfl

theorem nodeInsert_exhausted {db : Database V} (next : db.next? sequence = some n)
    (exhausted : Database.endOfSequence ≤ n) :
    Database.newRow vs (nodeInsert h t attributes).values t.columns db.sequences =
      Database.failure .execution := by
  obtain ⟨c, rest, eq, _, _, first⟩ := ofEntity.split
  obtain ⟨⟨_, k⟩, drawn, rfl⟩ := Option.map_eq_some_iff.1 next
  have start := first h attributes vs db.sequences
  rw [drawn] at start
  simp only [if_neg (Int.not_lt.2 exhausted)] at start
  rw [eq, Database.newRow, start]
  rfl

/-! ### The new row -/

theorem entityRow_id (n : Int) : t.idOf? (t.entityRow vs h attributes n) = some n := by
  obtain ⟨c, mem, name⟩ := ofEntity.id_mem
  rw [idOf?_eq_some, entityRow, cell_map ofEntity.distinct _ mem (name ▸ sameName_self _)]
  exact if_pos (name ▸ sameName_self _)

theorem entityRow_cell {c : Column} (mem : c ∈ t.columns) (other : sameName c.name Schema.idColumn = false) :
    t.cell (t.entityRow vs h attributes n) c.name = t.attributeCell vs h attributes c := by
  rw [entityRow, cell_map ofEntity.distinct _ mem (sameName_self _), other]
  rfl

theorem entityRow_holds : t.Holds (t.entityRow vs h attributes n) := by
  intro c mem other x cell
  rw [entityRow_cell ofEntity mem other, attributeCell] at cell
  split at cell
  · obtain ⟨text, _, read⟩ := Option.bind_eq_some_iff.1 cell
    obtain ⟨v, _, rfl⟩ := Option.map_eq_some_iff.1 read
    exact ⟨v, rfl⟩
  · cases cell

theorem entityRow_hides : t.Hides h (t.entityRow vs h attributes n) := by
  intro c mem other notOwn
  rw [entityRow_cell ofEntity mem other, attributeCell, notOwn]
  rfl

theorem entityRow_carries (ideal : vs.Ideal) (fits : t.Fits h attributes) (castable : t.Castable vs h attributes) :
    t.carries vs attributes (t.entityRow vs h attributes n) = true := by
  rw [fits.carries_iff ofEntity (entityRow_hides ofEntity)]
  intro c mem own
  rw [entityRow_cell ofEntity mem (ofEntity.attribute_not_id mem own), attributeCell, if_pos own, holdsValue]
  cases value : valueFor? attributes c.inCatalog with
  | none => rfl
  | some text =>
    obtain ⟨v, read⟩ := Option.isSome_iff_exists.1 (castable c mem own text value)
    simp only [Option.bind_some, read, Option.map_some, Option.any_some]
    exact ideal.equivalence.refl v

/-- A row that is added to an entity's table under the next number keeps what holds of the rows. -/
theorem EntityRows.add {next : Int} (rows : t.EntityRows vs h next) (ideal : vs.Ideal) (sign : 1 ≤ next)
    (fits : t.Fits h attributes) (castable : t.Castable vs h attributes)
    (new : ∀ row ∈ t.rows, t.carries vs attributes row = false) :
    (t.add (t.entityRow vs h attributes next)).EntityRows vs h (next + 1) where
  numbered := by
    intro row mem
    rcases List.mem_append.1 mem with mem | mem
    · obtain ⟨n, number, low, high⟩ := rows.numbered row mem
      exact ⟨n, number, low, by omega⟩
    · obtain rfl := List.mem_singleton.1 mem
      exact ⟨next, entityRow_id ofEntity next, sign, by omega⟩
  apart := by
    have fresh : ∀ row ∈ t.rows, t.idOf? row ≠ some next := by
      intro row mem same
      obtain ⟨n, number, _, high⟩ := rows.numbered row mem
      rw [number, Option.some.injEq] at same
      omega
    have ids : (t.add (t.entityRow vs h attributes next)).rows.map t.idOf? = t.rows.map t.idOf? ++ [some next] := by
      simp [StoredTable.add, entityRow_id ofEntity]
    have nodup : (t.rows.map t.idOf? ++ [some next]).Nodup := by
      rw [List.nodup_append]
      refine ⟨rows.apart, by simp, fun x hx y hy => ?_⟩
      obtain ⟨row, mem, rfl⟩ := List.mem_map.1 hx
      exact (List.mem_singleton.1 hy) ▸ fresh row mem
    rw [← ids] at nodup
    exact nodup
  holds := by
    intro row mem
    rcases List.mem_append.1 mem with mem | mem
    · exact rows.holds row mem
    · have held : t.Holds (t.entityRow vs h attributes next) := entityRow_holds ofEntity
      exact List.mem_singleton.1 mem ▸ held
  hides := by
    intro row mem
    rcases List.mem_append.1 mem with mem | mem
    · exact rows.hides row mem
    · have hidden : t.Hides h (t.entityRow vs h attributes next) := entityRow_hides ofEntity
      exact List.mem_singleton.1 mem ▸ hidden
  distinct := by
    refine List.pairwise_append.2 ⟨rows.distinct, List.pairwise_singleton _ _, fun row mem row' mem' agree => ?_⟩
    obtain rfl := List.mem_singleton.1 mem'
    -- A row that agrees with the new one would carry the node's attributes, and none does.
    have held : t.Holds (t.entityRow vs h attributes next) := entityRow_holds ofEntity
    have back : t.Agree vs (t.entityRow vs h attributes next) row := Agree.symm ideal (rows.holds row mem) held agree
    have carried := back.carries ideal held (rows.holds row mem)
      (entityRow_carries ofEntity ideal fits castable)
    rw [new row mem] at carried
    cases carried

end Row

end StoredTable

namespace Database

open StoredTable

variable {V : Type} {vs : ValueSystem V} {h : Hierarchy} {t : StoredTable V} {sequence : String}
  {attributes : TextMap String} {n : Int} (ofEntity : t.OfEntity sequence)
include ofEntity

theorem keepsKeys_node (rows : t.EntityRows vs h n) : keepsKeys vs t (t.entityRow vs h attributes n) = true := by
  have number : t.cell (t.entityRow vs h attributes n) Schema.idColumn = Option.some (.id n) :=
    idOf?_eq_some.1 (entityRow_id ofEntity n)
  have filled : (t.columns.all fun c =>
      !(c.notNull || c.primaryKey) || (t.cell (t.entityRow vs h attributes n) c.name).isSome) = true := by
    obtain ⟨c, rest, eq, name, _, _, _, plain⟩ := ofEntity.columns
    rw [eq, List.all_cons, name, number, Option.isSome_some, Bool.or_true, Bool.true_and, List.all_eq_true]
    intro d hd
    rw [(plain d hd).2.1, (plain d hd).2.2]
    rfl
  obtain ⟨c, mem, name⟩ := ofEntity.id_mem
  have placed : (t.position? Schema.idColumn).isSome = true :=
    StoredTable.position?_isSome.2 ⟨c, mem, name ▸ sameName_self _⟩
  obtain ⟨i, at_⟩ := Option.isSome_iff_exists.1 placed
  have cell : ∀ row : Cells V, row.cell i = t.cell row Schema.idColumn := fun row => by
    rw [StoredTable.cell, at_, Option.bind_some]
  have new : ∀ row ∈ t.rows, Cell.sameOrNull vs (row.cell i) ((t.entityRow vs h attributes n).cell i) = false := by
    intro row mem
    obtain ⟨k, numbered, _, below⟩ := rows.numbered row mem
    rw [cell, cell, number, idOf?_eq_some.1 numbered]
    simp only [Cell.sameOrNull, Cell.same, decide_eq_false_iff_not]
    omega
  unfold keepsKeys
  rw [ofEntity.keyColumns]
  simp only [List.filterMap_cons, List.filterMap_nil, at_, filled, List.all_cons, List.all_nil, Bool.and_true,
    List.isEmpty_cons, Bool.false_or, Bool.true_and, cell, number, Option.isSome_some, List.all_eq_true]
  intro row mem
  have different := new row mem
  rw [cell, cell, number] at different
  rw [different]
  rfl

theorem insertReturning_node {db : Database V} (enforce : Bool) (found : db.table? t.name = some t)
    (rows : t.EntityRows vs h n) (next : db.next? sequence = some n) (fits : t.Fits h attributes)
    (some : attributes.isEmpty = false) (castable : t.Castable vs h attributes) :
    db.insertReturning vs enforce (nodeInsert h t attributes) =
      if n < endOfSequence then
        if !enforce || db.keepsReferences vs t (t.entityRow vs h attributes n) then
          (.ok n, (db.draw sequence).addRow t.name (t.entityRow vs h attributes n))
        else (failure .constraint, db.draw sequence)
      else (failure .execution, db) := by
  obtain ⟨c, mem, name⟩ := ofEntity.id_mem
  have hasId : (t.column? Schema.idColumn).isNone = false := by
    rw [StoredTable.column?_eq ofEntity.distinct mem (name ▸ sameName_self _)]
    rfl
  have number : t.cell (t.entityRow vs h attributes n) Schema.idColumn = Option.some (.id n) :=
    idOf?_eq_some.1 (entityRow_id ofEntity n)
  unfold insertReturning
  rw [show (nodeInsert h t attributes).table = t.name from rfl, found]
  simp only [hasId, Bool.false_eq_true, if_false, insertInto, rowOf, nodeInsert_known ofEntity fits some]
  by_cases left : n < endOfSequence
  · rw [nodeInsert_row ofEntity castable next left, if_pos left]
    simp only [keepsKeys_node ofEntity rows, Bool.true_and]
    by_cases keeps : (!enforce || db.keepsReferences vs t (t.entityRow vs h attributes n)) = true
    · rw [if_pos keeps, if_pos keeps]
      simp only [number]
      rfl
    · rw [if_neg keeps, if_neg keeps]
      rfl
  · rw [nodeInsert_exhausted ofEntity next (Int.not_lt.1 left), if_neg left]
    rfl

end Database

end TreeStore
