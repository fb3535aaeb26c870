import TreeStore.Proofs.Load.NewEntity
import TreeStore.Proofs.Store.IdRows

/-! What holds of a database whenever trees are loaded into it: the tables of the model are there, the
hierarchy's table is as it was laid down, the rows of an entity's table have ids of their own and no two of
them agree, and tables of ids hold each row once. -/

namespace TreeStore

namespace Model.Compiles

variable {m : Model} (compiles : m.Compiles)
include compiles

theorem entity_kind {t : Table} (mem : t ∈ m.tables) (kind : t.kind = .entity) :
    ∃ e ∈ m.entities, ∃ created, t = Schema.entityTable created e := by
  rcases compiles.wellNamed.mem_tables mem with rfl | found | ⟨e, _, r, _, rfl⟩ | ⟨e, _, _, rfl⟩
  · cases kind
  · exact found
  · cases kind
  · cases kind

theorem sequence_of_kind {t : Table} (mem : t ∈ m.tables) (kind : t.kind = .entity) :
    t.sequence? = some (Schema.sequenceOf t.name) := by
  obtain ⟨e, _, created, rfl⟩ := compiles.entity_kind mem kind
  rfl

theorem id_columns {t : Table} (mem : t ∈ m.tables) (kind : t.kind = .junction ∨ t.kind = .relationships) :
    t.primaryKey = [] ∧ ∀ c ∈ t.columns, c.primaryKey = false ∧ c.default? = none := by
  rcases compiles.wellNamed.mem_tables mem with rfl | ⟨e, _, created, rfl⟩ | ⟨e, _, r, _, rfl⟩ | ⟨e, he, _, rfl⟩
  · rcases kind with kind | kind <;> cases kind
  · rcases kind with kind | kind <;> cases kind
  · refine ⟨rfl, fun c hc => ?_⟩
    rcases List.mem_pair.1 hc with rfl | rfl <;> exact ⟨rfl, rfl⟩
  · refine ⟨rfl, fun c hc => ?_⟩
    obtain ⟨f, _, rfl⟩ := relationships_column hc ⟨e, he, rfl⟩
    exact ⟨rfl, rfl⟩

variable {V : Type} (vs : ValueSystem V)

theorem stored_ofEntity {t : Table} (mem : t ∈ m.tables) (kind : t.kind = .entity) (rows : List (Cells V)) :
    ((Database.stored vs t).withRows rows).OfEntity (Schema.sequenceOf t.name) where
  distinct := Database.stored_distinct vs (compiles.columns_distinct mem)
  ascii := by
    intro c hc
    obtain ⟨d, hd, rfl⟩ := (Database.mem_stored_columns vs).1 hc
    exact Ident.isValid_ascii ((compiles.table_checked mem).2 d hd)
  noKey := by
    obtain ⟨e, _, created, rfl⟩ := compiles.entity_kind mem kind
    rfl
  columns := by
    obtain ⟨e, _, created, rfl⟩ := compiles.entity_kind mem kind
    refine ⟨_, _, rfl, rfl, rfl, rfl, rfl, fun d hd => ?_⟩
    obtain ⟨c, hc, rfl⟩ := List.mem_map.1 hd
    rcases List.mem_append.1 hc with hc | hc
    · obtain ⟨a, _, rfl⟩ := List.mem_map.1 hc
      exact ⟨rfl, rfl, rfl⟩
    · obtain ⟨r, _, rfl⟩ := List.mem_map.1 hc
      exact ⟨rfl, rfl, rfl⟩

theorem stored_ofIds {t : Table} (mem : t ∈ m.tables) (kind : t.kind = .junction ∨ t.kind = .relationships)
    (rows : List (Cells V)) : ((Database.stored vs t).withRows rows).OfIds := by
  obtain ⟨noKey, plain⟩ := compiles.id_columns mem kind
  have each : ∀ c ∈ (Database.stored vs t).columns, c.primaryKey = false ∧ c.default? = none := by
    intro c hc
    obtain ⟨d, hd, rfl⟩ := (Database.mem_stored_columns vs).1 hc
    exact plain d hd
  refine ⟨Database.stored_distinct vs (compiles.columns_distinct mem), ?_, each⟩
  have none : (Database.stored vs t).columns.filter (·.primaryKey) = [] := by
    rw [List.filter_eq_nil_iff]
    intro c hc
    simp [(each c hc).1]
  have empty : ((Database.stored vs t).withRows rows).primaryKey.isEmpty = true := by
    rw [show ((Database.stored vs t).withRows rows).primaryKey = t.primaryKey from rfl, noKey]
    rfl
  rw [StoredTable.keyColumns, if_pos empty]
  exact congrArg (List.map (·.name)) none

end Model.Compiles

namespace Database

variable {V : Type} (vs : ValueSystem V)

def tableAt (db : Database V) (t : Table) : StoredTable V := (stored vs t).withRows (db.rowsOf t.name)

structure Consistent (m : Model) (db : Database V) : Prop where
  there : LaysOut vs m db
  registry : db.rowsOf Schema.registryTable = m.hierarchy.entries.map (entryRow vs)
  entities : ∀ t ∈ m.tables, t.kind = .entity → ∃ n, db.next? (Schema.sequenceOf t.name) = some n ∧
    1 ≤ n ∧ n ≤ endOfSequence ∧ (db.tableAt vs t).EntityRows vs m.hierarchy n
  ids : ∀ t ∈ m.tables, t.kind = .junction ∨ t.kind = .relationships →
    IdRows t.columns.length (db.rowsOf t.name)

variable {vs} {m : Model} {db : Database V} (compiles : m.Compiles)
include compiles

theorem founded_rowsOf {t : Table} (mem : t ∈ m.dataTables) : (founded vs m).rowsOf t.name = [] := by
  have inTables : t ∈ m.tables := by
    rw [m.tables_eq]
    exact List.mem_cons_of_mem _ mem
  have names : ((founded vs m).tables.map (Text.lower ·.name)).Nodup := by
    have keys := compiles.table_keys
    rw [m.tables_eq] at keys
    simpa [founded, withHierarchy, stored, Function.comp_def, registryOf] using keys
  have there : stored vs t ∈ (founded vs m).tables := List.mem_cons_of_mem _ (List.mem_map_of_mem mem)
  rw [rowsOf, table?_eq names there (sameName_self t.name)]
  rfl

theorem founded_next? {t : Table} (mem : t ∈ m.tables) (kind : t.kind = .entity) :
    (founded vs m).next? (Schema.sequenceOf t.name) = some 1 := by
  have listed : (Schema.sequenceOf t.name, (1 : Int)) ∈ sequencesOf m.tables := by
    rw [sequencesOf, List.mem_map]
    exact ⟨_, List.mem_filterMap.2 ⟨t, mem, compiles.sequence_of_kind mem kind⟩, rfl⟩
  have found : ((sequencesOf m.tables).find? (sameName ·.1 (Schema.sequenceOf t.name))).isSome = true :=
    List.find?_isSome.2 ⟨_, listed, sameName_self _⟩
  obtain ⟨s, hs⟩ := Option.isSome_iff_exists.1 found
  have one : s.2 = 1 := by
    obtain ⟨q, _, rfl⟩ := List.mem_map.1 (List.mem_of_find?_eq_some hs)
    rfl
  rw [next?, founded, withHierarchy, hs, Option.map_some, one]

omit compiles in
theorem mem_dataTables {t : Table} (mem : t ∈ m.tables) (kind : t.kind ≠ .registry) : t ∈ m.dataTables := by
  rw [m.tables_eq] at mem
  rcases List.mem_cons.1 mem with rfl | mem
  · exact absurd rfl kind
  · exact mem

theorem founded_consistent : Consistent vs m (founded vs m) where
  there := founded_laysOut vs m
  registry := by
    rw [rowsOf, founded, withHierarchy_table?]
    rfl
  entities := fun t mem kind => by
    have data : t.kind ≠ .registry := by
      rw [kind]
      decide
    have empty : (founded vs m).rowsOf t.name = [] := founded_rowsOf compiles (mem_dataTables mem data)
    have next : (founded vs m).next? (Schema.sequenceOf t.name) = some 1 := founded_next? compiles mem kind
    have bound : (1 : Int) ≤ endOfSequence := by
      unfold endOfSequence
      omega
    have rows : ((founded vs m).tableAt vs t).EntityRows vs m.hierarchy 1 := by
      rw [tableAt, empty]
      constructor <;> simp [StoredTable.withRows]
    exact ⟨1, next, Int.le_refl 1, bound, rows⟩
  ids := fun t mem kind => by
    have data : t.kind ≠ .registry := by rcases kind with kind | kind <;> rw [kind] <;> decide
    rw [founded_rowsOf compiles (mem_dataTables mem data)]
    exact ⟨by simp, .nil⟩

variable (consistent : Consistent vs m db)
include consistent

theorem Consistent.table? {t : Table} (mem : t ∈ m.tables) : db.table? t.name = some (db.tableAt vs t) :=
  consistent.there.table? compiles mem

omit compiles in
/-- The hierarchy's table is there, with the entries of the model's hierarchy. -/
theorem Consistent.registryTable? : db.table? Schema.registryTable = some (registryOf vs m.hierarchy) := by
  have there := consistent.there
  rw [LaysOut, m.tables_eq, List.map_cons] at there
  cases tables : db.tables with
  | nil => rw [tables] at there; cases there
  | cons first others =>
    rw [tables, List.map_cons, List.cons.injEq] at there
    have name : first.name = Schema.registryTable := congrArg StoredTable.name there.1
    have found : db.table? Schema.registryTable = some first := by
      rw [Database.table?, tables]
      exact List.find?_cons_of_pos (name ▸ sameName_self first.name)
    have rows : first.rows = m.hierarchy.entries.map (entryRow vs) := by
      rw [← consistent.registry, rowsOf, found]
      rfl
    rw [found, registryOf, ← rows, ← there.1]
    rfl

omit compiles in
/-- The hierarchy is read back, whatever has been loaded. -/
theorem Consistent.hierarchy (ideal : vs.Ideal) (enforce : Bool) : ∃ g : Hierarchy,
    g.entries.Perm m.hierarchy.entries ∧ Registry.load (store vs enforce) db = (.ok g, db) :=
  load_ok ideal consistent.registryTable? enforce

/-! ### Steps -/

theorem Consistent.draw {t : Table} (mem : t ∈ m.tables) (kind : t.kind = .entity) {n : Int}
    (next : db.next? (Schema.sequenceOf t.name) = some n) (left : n < endOfSequence) :
    Consistent vs m (db.draw (Schema.sequenceOf t.name)) where
  there := consistent.there
  registry := consistent.registry
  entities := fun u hu kind' => by
    obtain ⟨k, nextU, low, high, rows⟩ := consistent.entities u hu kind'
    rw [next?_draw, nextU]
    by_cases same : sameName (Schema.sequenceOf u.name) (Schema.sequenceOf t.name) = true
    · obtain rfl := compiles.sequence_unique mem hu (compiles.sequence_of_kind mem kind)
        (compiles.sequence_of_kind hu kind') same
      obtain rfl : k = n := Option.some.inj (nextU.symm.trans next)
      refine ⟨k + 1, by rw [Option.map_some, if_pos same], by omega, by omega, ?_⟩
      exact { rows with
        numbered := fun row mem => by
          obtain ⟨i, number, low, below⟩ := rows.numbered row mem
          exact ⟨i, number, low, by omega⟩ }
    · exact ⟨k, by rw [Option.map_some, if_neg same], low, high, rows⟩
  ids := consistent.ids

omit consistent in
theorem tableAt_addRow (there : LaysOut vs m db) {t u : Table} (ht : t ∈ m.tables) (hu : u ∈ m.tables)
    (row : Cells V) : (db.addRow t.name row).tableAt vs u =
      if u = t then (db.tableAt vs u).add row else db.tableAt vs u := by
  rw [tableAt, there.rowsOf_addRow compiles ht hu]
  split <;> rfl

theorem Consistent.addEntity (ideal : vs.Ideal) {t : Table} (mem : t ∈ m.tables) (kind : t.kind = .entity) {n : Int}
    (next : db.next? (Schema.sequenceOf t.name) = some n) (left : n < endOfSequence) {attributes : TextMap String}
    (fits : (db.tableAt vs t).Fits m.hierarchy attributes)
    (castable : (db.tableAt vs t).Castable vs m.hierarchy attributes)
    (new : ∀ row ∈ db.rowsOf t.name, (db.tableAt vs t).carries vs attributes row = false) :
    Consistent vs m ((db.draw (Schema.sequenceOf t.name)).addRow t.name
      ((db.tableAt vs t).entityRow vs m.hierarchy attributes n)) := by
  have drawn := consistent.draw compiles mem kind next left
  have rowsOf {u : Table} (hu : u ∈ m.tables) := drawn.there.rowsOf_addRow compiles mem hu
    ((db.tableAt vs t).entityRow vs m.hierarchy attributes n)
  constructor
  · exact drawn.there.addRow _ _
  · have other : Schema.registry ≠ t := by
      rintro rfl
      cases kind
    have same := rowsOf (Model.Compiles.registry_mem m)
    rw [if_neg other] at same
    exact same.trans drawn.registry
  · intro u hu kind'
    by_cases eq : u = t
    · subst eq
      obtain ⟨k, next', low, high, rows⟩ := consistent.entities u hu kind'
      obtain rfl : k = n := Option.some.inj (next'.symm.trans next)
      refine ⟨k + 1, ?_, by omega, by omega, ?_⟩
      · have bumped := next?_draw db (Schema.sequenceOf u.name) (Schema.sequenceOf u.name)
        rw [next, Option.map_some, if_pos (sameName_self _)] at bumped
        exact bumped
      · rw [tableAt_addRow compiles drawn.there mem mem, if_pos rfl]
        exact rows.add (compiles.stored_ofEntity vs mem kind _) ideal low fits castable new
    · rw [tableAt_addRow compiles drawn.there mem hu, if_neg eq]
      exact drawn.entities u hu kind'
  · intro u hu kind'
    have other : u ≠ t := by
      rintro rfl
      rcases kind' with kind' | kind' <;> rw [kind] at kind' <;> cases kind'
    rw [rowsOf hu, if_neg other]
    exact drawn.ids u hu kind'

theorem Consistent.addIds {t : Table} (mem : t ∈ m.tables) (kind : t.kind = .junction ∨ t.kind = .relationships)
    {ids : List (Option Int)} (width : ids.length = t.columns.length) (new : idRow ids ∉ db.rowsOf t.name) :
    Consistent vs m (db.addRow t.name (idRow ids)) := by
  have rowsOf {u : Table} (hu : u ∈ m.tables) := consistent.there.rowsOf_addRow compiles mem hu (idRow ids)
  constructor
  · exact consistent.there.addRow _ _
  · have other : Schema.registry ≠ t := by
      rintro rfl
      rcases kind with kind | kind <;> cases kind
    have same := rowsOf (Model.Compiles.registry_mem m)
    rw [if_neg other] at same
    exact same.trans consistent.registry
  · intro u hu kind'
    have other : u ≠ t := by
      rintro rfl
      rcases kind with kind | kind <;> rw [kind'] at kind <;> cases kind
    rw [tableAt_addRow compiles consistent.there mem hu, if_neg other]
    exact consistent.entities u hu kind'
  · intro u hu kind'
    rw [rowsOf hu]
    split
    · next eq =>
      subst eq
      obtain ⟨made, distinct⟩ := consistent.ids u hu kind'
      refine ⟨fun row hrow => ?_, ?_⟩
      · rcases List.mem_append.1 hrow with hrow | hrow
        · exact made row hrow
        · exact ⟨ids, width, List.mem_singleton.1 hrow⟩
      · rw [List.nodup_append]
        refine ⟨distinct, List.nodup_singleton _, fun a ha b hb => ?_⟩
        rw [List.mem_singleton.1 hb]
        rintro rfl
        exact new ha
    · exact consistent.ids u hu kind'

end Database

end TreeStore
