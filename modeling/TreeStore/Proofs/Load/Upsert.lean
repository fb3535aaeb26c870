import TreeStore.Proofs.Load.Steps

/-! Finding or inserting a node: the node is matched with the first row that carries its attributes, or gets
a row under the next number; and why neither may happen. -/

namespace TreeStore

open Database Loader

variable {V : Type} (vs : ValueSystem V) (m : Model)

/-- What becomes of a node that is loaded: its number, the database and the report. -/
inductive Upserted (t : Table) (attributes : TextMap String) (db : Database V) (report : LoadReport) :
    Int → Database V → LoadReport → Prop
  | found {row : Cells V} {n : Int}
      (first : (db.rowsOf t.name).find? ((stored vs t).carries vs attributes) = some row)
      (number : (stored vs t).idOf? row = some n) :
      Upserted t attributes db report n db { report with rowsReused := report.rowsReused + 1 }
  | added {n : Int} (new : ∀ row ∈ db.rowsOf t.name, (stored vs t).carries vs attributes row = false)
      (next : db.next? (Schema.sequenceOf t.name) = some n) (left : n < endOfSequence) :
      Upserted t attributes db report n
        ((db.draw (Schema.sequenceOf t.name)).addRow t.name ((stored vs t).entityRow vs m.hierarchy attributes n))
        { report with rowsInserted := report.rowsInserted + 1 }

inductive Refused (enforce : Bool) (path : NodePath) (t : Table) (attributes : TextMap String) (db : Database V) :
    LoadError → Database V → Prop
  | unfit {key : String} (carried : key ∈ attributes.keys) (unknown : ¬ (stored vs t).HasAttribute m.hierarchy key) :
      Refused enforce path t attributes db (.misfit path (.notColumn key t.name)) db
  | unreadable (fits : (stored vs t).Fits m.hierarchy attributes)
      (bad : ¬ (stored vs t).Castable vs m.hierarchy attributes) :
      Refused enforce path t attributes db (.store path (.failed .execution none)) db
  | exhausted {n : Int} (fits : (stored vs t).Fits m.hierarchy attributes)
      (castable : (stored vs t).Castable vs m.hierarchy attributes)
      (new : ∀ row ∈ db.rowsOf t.name, (stored vs t).carries vs attributes row = false)
      (next : db.next? (Schema.sequenceOf t.name) = some n)
      (reached : endOfSequence ≤ n) : Refused enforce path t attributes db (.store path (.failed .execution none)) db
  | dangling {n : Int} (fits : (stored vs t).Fits m.hierarchy attributes)
      (castable : (stored vs t).Castable vs m.hierarchy attributes)
      (new : ∀ row ∈ db.rowsOf t.name, (stored vs t).carries vs attributes row = false)
      (next : db.next? (Schema.sequenceOf t.name) = some n)
      (left : n < endOfSequence) (asked : enforce = true)
      (broken : db.keepsReferences vs (db.tableAt vs t) ((stored vs t).entityRow vs m.hierarchy attributes n) = false) :
      Refused enforce path t attributes db (.store path (.failed .constraint none)) (db.draw (Schema.sequenceOf t.name))

namespace Loader

variable {vs m} (enforce : Bool)

theorem catalog_hasId {t : Table} (ofEntity : (stored vs t).OfEntity (Schema.sequenceOf t.name)) :
    (catalog vs t).any (Text.sameIgnoringCase ·.name Schema.idColumn) = true := by
  obtain ⟨c, mem, name⟩ := ofEntity.id_mem
  rw [catalog, List.any_map, List.any_eq_true]
  exact ⟨c, mem, name ▸ Text.sameIgnoringCase_self c.name⟩

theorem attributeColumns_catalog (h : Hierarchy) (t : Table) : attributeColumns h t.name (catalog vs t) =
    ((stored vs t).ownColumns h).map Column.inCatalog :=
  StoredTable.attributeColumns_eq h (stored vs t)

theorem hasAttribute_catalog {t : Table} {key : String} :
    (((stored vs t).ownColumns m.hierarchy).map Column.inCatalog).any (Text.sameIgnoringCase ·.name key) = true ↔
      (stored vs t).HasAttribute m.hierarchy key := by
  rw [List.any_map, List.any_eq_true]
  constructor
  · rintro ⟨c, mem, same⟩
    obtain ⟨mem, own⟩ := StoredTable.mem_ownColumns.1 mem
    exact ⟨c, mem, own, same⟩
  · rintro ⟨c, mem, own, same⟩
    exact ⟨c, StoredTable.mem_ownColumns.2 ⟨mem, own⟩, same⟩

theorem unknownKey_eq_none {t : Table} {attributes : TextMap String} :
    (attributes.keys.find? fun k =>
      !(((stored vs t).ownColumns m.hierarchy).map Column.inCatalog).any (Text.sameIgnoringCase ·.name k)) = none ↔
      (stored vs t).Fits m.hierarchy attributes := by
  rw [List.find?_eq_none]
  refine forall₂_congr fun k _ => ?_
  rw [Bool.not_eq_true', Bool.not_eq_false, hasAttribute_catalog]
  rfl

variable (compiles : m.Compiles)
include compiles

theorem ownColumns_plain (ideal : vs.Ideal) {t : Table} (mem : t ∈ m.tables) (h : Hierarchy) :
    ∀ c ∈ ((stored vs t).ownColumns h).map Column.inCatalog, isPlainType c.type = true := by
  intro c hc
  obtain ⟨d, hd, rfl⟩ := List.mem_map.1 hc
  obtain ⟨e, he, rfl⟩ := (mem_stored_columns vs).1 (StoredTable.mem_ownColumns.1 hd).1
  obtain ⟨kind, type⟩ := compiles.table_types mem he
  simpa [Column.inCatalog, type] using ideal.plain kind

section FindOrInsert

variable {db : Database V} (consistent : Consistent vs m db) {t : Table} (mem : t ∈ m.tables) (kind : t.kind = .entity)
  {attributes : TextMap String} (fits : (stored vs t).Fits m.hierarchy attributes) (path : NodePath)
  (columns : ColumnCache) (report : LoadReport)
include consistent mem kind fits

theorem select_carrying (castable : (stored vs t).Castable vs m.hierarchy attributes) :
    (store vs enforce).answer (.select (StoredTable.nodeQuery m.hierarchy (stored vs t) attributes)) db =
      (.ok (((db.rowsOf t.name).find? ((stored vs t).carries vs attributes)).toList.map fun row =>
        [((stored vs t).cell row Schema.idColumn).map (Cell.toText vs)]), db) := by
  have ofEntity := compiles.stored_ofEntity vs mem kind (db.rowsOf t.name)
  obtain ⟨_, _, _, _, rows⟩ := consistent.entities t mem kind
  exact congrArg (·, db)
    (StoredTable.select_node ofEntity (consistent.table? compiles mem) fits castable rows.hides)

theorem findOrInsert_found (castable : (stored vs t).Castable vs m.hierarchy attributes) {row : Cells V}
    (first : (db.rowsOf t.name).find? ((stored vs t).carries vs attributes) = some row) :
    ∃ n, Upserted vs m t attributes db report n db { report with rowsReused := report.rowsReused + 1 } ∧
      outcome (findOrInsert (store vs enforce) path t.name
        (nodeValues attributes (((stored vs t).ownColumns m.hierarchy).map Column.inCatalog))) ⟨db, columns, report⟩ =
          (.ok n, ⟨db, columns, { report with rowsReused := report.rowsReused + 1 }⟩) := by
  obtain ⟨_, _, _, high, rows⟩ := consistent.entities t mem kind
  have selected := select_carrying enforce compiles consistent mem kind fits castable
  rw [first] at selected
  obtain ⟨k, number, positive, below⟩ := rows.numbered row (List.mem_of_find?_eq_some first)
  have read : idOfRow t.name [((stored vs t).cell row Schema.idColumn).map (Cell.toText vs)] = .ok k :=
    StoredTable.idOfRow_ok number positive (by omega)
  refine ⟨k, .found first number, ?_⟩
  unfold findOrInsert
  rw [outcome_bind_ok (outcome_ask_ok selected)]
  simp only [Option.toList_some, List.map_cons, read]
  rfl

theorem findOrInsert_new (bearing : attributes.isEmpty = false)
    (castable : (stored vs t).Castable vs m.hierarchy attributes)
    (none : (db.rowsOf t.name).find? ((stored vs t).carries vs attributes) = none) :
    (∃ n db' report', Upserted vs m t attributes db report n db' report' ∧
        outcome (findOrInsert (store vs enforce) path t.name
          (nodeValues attributes (((stored vs t).ownColumns m.hierarchy).map Column.inCatalog)))
            ⟨db, columns, report⟩ = (.ok n, ⟨db', columns, report'⟩)) ∨
      ∃ e db', Refused vs m enforce path t attributes db e db' ∧
        outcome (findOrInsert (store vs enforce) path t.name
          (nodeValues attributes (((stored vs t).ownColumns m.hierarchy).map Column.inCatalog)))
            ⟨db, columns, report⟩ = (.error e, ⟨db', columns, report⟩) := by
  have ofEntity := compiles.stored_ofEntity vs mem kind (db.rowsOf t.name)
  obtain ⟨n, next, _, _, rows⟩ := consistent.entities t mem kind
  have new : ∀ row ∈ db.rowsOf t.name, (stored vs t).carries vs attributes row = false := fun row hrow => by
    simpa using List.find?_eq_none.1 none row hrow
  have selected := select_carrying enforce compiles consistent mem kind fits castable
  rw [none] at selected
  have found := consistent.table? compiles mem
  have inserted := insertReturning_node ofEntity enforce found rows next fits bearing castable
  unfold findOrInsert
  rw [outcome_bind_ok (outcome_ask_ok selected)]
  by_cases left : n < endOfSequence
  · rw [if_pos left] at inserted
    by_cases kept : (!enforce || db.keepsReferences vs (db.tableAt vs t)
        ((stored vs t).entityRow vs m.hierarchy attributes n)) = true
    · replace inserted := inserted.trans (if_pos kept)
      exact .inl ⟨n, _, _, .added new next left, outcome_bind_ok (outcome_ask_ok inserted)⟩
    · replace inserted := inserted.trans (if_neg kept)
      simp only [Bool.or_eq_true, Bool.not_eq_true', not_or, Bool.not_eq_false, Bool.not_eq_true] at kept
      refine .inr ⟨.store path (.failed .constraint Option.none), _,
        .dangling fits castable new next left kept.1 kept.2, ?_⟩
      exact outcome_bind_error (outcome_ask_error inserted)
  · rw [if_neg left] at inserted
    refine .inr ⟨.store path (.failed .execution Option.none), db,
      .exhausted fits castable new next (Int.not_lt.1 left), ?_⟩
    exact outcome_bind_error (outcome_ask_error inserted)

omit fits in
theorem findOrInsert_unreadable (unreadable : ¬ (stored vs t).Castable vs m.hierarchy attributes) :
    outcome (findOrInsert (store vs enforce) path t.name
      (nodeValues attributes (((stored vs t).ownColumns m.hierarchy).map Column.inCatalog))) ⟨db, columns, report⟩ =
        (.error (.store path (.failed .execution none)), ⟨db, columns, report⟩) := by
  have ofEntity := compiles.stored_ofEntity vs mem kind (db.rowsOf t.name)
  have selected : (store vs enforce).answer (.select (StoredTable.nodeQuery m.hierarchy (stored vs t) attributes)) db =
      (_, db) :=
    congrArg (·, db) (StoredTable.select_unreadable ofEntity (consistent.table? compiles mem) unreadable)
  unfold findOrInsert
  rw [outcome_bind_error (outcome_ask_error selected)]

theorem findOrInsert_outcome (bearing : attributes.isEmpty = false) :
    (∃ n db' report', (stored vs t).Castable vs m.hierarchy attributes ∧
        Upserted vs m t attributes db report n db' report' ∧
        outcome (findOrInsert (store vs enforce) path t.name
          (nodeValues attributes (((stored vs t).ownColumns m.hierarchy).map Column.inCatalog)))
            ⟨db, columns, report⟩ = (.ok n, ⟨db', columns, report'⟩)) ∨
      ∃ e db', Refused vs m enforce path t attributes db e db' ∧
        outcome (findOrInsert (store vs enforce) path t.name
          (nodeValues attributes (((stored vs t).ownColumns m.hierarchy).map Column.inCatalog)))
            ⟨db, columns, report⟩ = (.error e, ⟨db', columns, report⟩) := by
  by_cases castable : (stored vs t).Castable vs m.hierarchy attributes
  · cases first : (db.rowsOf t.name).find? ((stored vs t).carries vs attributes) with
    | some row =>
      obtain ⟨n, upserted, eq⟩ :=
        findOrInsert_found enforce compiles consistent mem kind fits path columns report castable first
      exact .inl ⟨n, _, _, castable, upserted, eq⟩
    | none =>
      rcases findOrInsert_new enforce compiles consistent mem kind fits path columns report bearing castable first with
        ⟨n, db', report', upserted, eq⟩ | refused
      · exact .inl ⟨n, db', report', castable, upserted, eq⟩
      · exact .inr refused
  · have eq := findOrInsert_unreadable enforce compiles consistent mem kind path columns report castable
    exact .inr ⟨_, db, .unreadable fits castable, eq⟩

end FindOrInsert

/-- The outcome for a node: it is loaded or refused, and only a node that fits and can be read is loaded. -/
theorem upsert_outcome (ideal : vs.Ideal) {p : Progress (Database V)} (ready : Ready vs m p) {t : Table}
    (mem : t ∈ m.tables) (kind : t.kind = .entity) {attributes : TextMap String} (bearing : attributes.isEmpty = false)
    (path : NodePath) : ∃ columns, Remembers vs m columns ∧
      ((∃ n db report, (stored vs t).Fits m.hierarchy attributes ∧
          (stored vs t).Castable vs m.hierarchy attributes ∧
          Upserted vs m t attributes p.store p.report n db report ∧
          outcome (upsert (store vs enforce) m.hierarchy path t.name attributes) p = (.ok n, ⟨db, columns, report⟩)) ∨
        ∃ e db, Refused vs m enforce path t attributes p.store e db ∧
          outcome (upsert (store vs enforce) m.hierarchy path t.name attributes) p =
            (.error e, ⟨db, columns, p.report⟩)) := by
  obtain ⟨columns, right, asked⟩ := columnsOf_outcome enforce compiles ready mem path
  refine ⟨columns, right, ?_⟩
  have hasId := catalog_hasId (compiles.stored_ofEntity vs mem kind [])
  have values := columnValues_plain (ownColumns_plain compiles ideal mem m.hierarchy) path attributes
  have opened : outcome (upsert (store vs enforce) m.hierarchy path t.name attributes) p =
      (attributes.keys.find? fun k =>
        !(((stored vs t).ownColumns m.hierarchy).map Column.inCatalog).any (Text.sameIgnoringCase ·.name k)).elim
        (outcome (findOrInsert (store vs enforce) path t.name
          (nodeValues attributes (((stored vs t).ownColumns m.hierarchy).map Column.inCatalog))) { p with columns })
        fun key => (.error (.misfit path (.notColumn key t.name)), { p with columns }) := by
    unfold upsert
    rw [outcome_bind_ok asked]
    simp only [hasId, Bool.not_true, Bool.false_eq_true, if_false, attributeColumns_catalog, values]
    generalize attributes.keys.find? _ = unknown
    cases unknown <;> rfl
  rw [opened]
  cases unknown : attributes.keys.find? fun k =>
      !(((stored vs t).ownColumns m.hierarchy).map Column.inCatalog).any (Text.sameIgnoringCase ·.name k) with
  | some key =>
    have bad : ¬ (stored vs t).HasAttribute m.hierarchy key := by
      have absent := List.find?_some unknown
      rw [Bool.not_eq_true'] at absent
      rw [← hasAttribute_catalog, absent]
      decide
    exact .inr ⟨.misfit path (.notColumn key t.name), p.store, .unfit (List.mem_of_find?_eq_some unknown) bad, rfl⟩
  | none =>
    have fits := unknownKey_eq_none.1 unknown
    rcases findOrInsert_outcome enforce compiles ready.consistent mem kind fits path columns p.report
      bearing with ⟨n, db, report, castable, upserted, eq⟩ | ⟨e, db, refused, eq⟩
    · exact .inl ⟨n, db, report, fits, castable, upserted, eq⟩
    · exact .inr ⟨e, db, refused, eq⟩

end Loader

end TreeStore
