import TreeStore.Proofs.Load.Gains
import TreeStore.Proofs.Load.Rejection
import TreeStore.Proofs.Load.Uniqueness

/-! What holds of a database to which a schema has been applied, whatever trees are loaded into it, also trees that
have nothing to do with the model: its tables stay, with further rows, the hierarchy's table stays as it is, and what
loaders remember of columns is right. -/

namespace TreeStore

open Database Loader

variable {V : Type} (vs : ValueSystem V)

/-- What loading any trees keeps of a database. -/
structure Database.Settled (m : Model) (db : Database V) : Prop where
  grown : (founded vs m).Grows db
  registry : db.table? Schema.registryTable = some (registryOf vs m.hierarchy)

variable {vs} {m : Model} {db db' : Database V}

/-! ### Tables -/

namespace Model.Compiles

variable (compiles : m.Compiles)
include compiles

/-- Only tables of entities have an id of their own. -/
theorem no_id {t : Table} (mem : t ∈ m.tables) (kind : t.kind ≠ .entity) {c : Column} (hc : c ∈ t.columns) :
    Text.lower c.name ≠ Schema.idColumn := by
  rcases compiles.wellNamed.mem_tables mem with rfl | ⟨e, _, created, rfl⟩ | ⟨e, _, r, _, rfl⟩ | ⟨e, he, _, rfl⟩
  · have all : ∀ c ∈ Schema.registry.columns, Text.lower c.name ≠ Schema.idColumn := by decide
    exact all c hc
  · exact absurd rfl kind
  · rcases List.mem_pair.1 hc with rfl | rfl
    · exact Schema.contextColumn_ne_id _
    · dsimp only
      unfold Schema.junctionTarget
      split
      · rw [Schema.contextColumn, ← String.append_assoc]
        exact Schema.contextColumn_ne_id _
      · exact Schema.contextColumn_ne_id _
  · obtain ⟨f, _, rfl⟩ := relationships_column hc ⟨e, he, rfl⟩
    exact Schema.contextColumn_ne_id _

end Model.Compiles

namespace Database

theorem SameRows.table? (same : db.SameRows db') (name : String) : db'.table? name = db.table? name := by
  rw [Database.table?, Database.table?, same]

theorem SameRows.grows (same : db.SameRows db') : db.Grows db' := by
  intro name
  obtain ⟨more, eq⟩ := Grows.refl db name
  exact ⟨more, (same.table? name).trans eq⟩

namespace Settled

theorem same (settled : Settled vs m db) (same : db.SameRows db') : Settled vs m db' :=
  ⟨settled.grown.trans same.grows, (same.table? _).trans settled.registry⟩

variable (settled : Settled vs m db)
include settled

theorem table {name : String} {t : StoredTable V} (found : db.table? name = some t) :
    ∃ u ∈ m.tables, sameName u.name name = true ∧ ∃ rows, t = (stored vs u).withRows rows := by
  obtain ⟨more, grown⟩ := settled.grown name
  rw [found] at grown
  obtain ⟨first, at_start, rfl⟩ := Option.map_eq_some_iff.1 grown.symm
  obtain ⟨mem, named⟩ := table?_mem at_start
  have blank : first.blank ∈ m.tables.map (stored vs) := by
    rw [← show (founded vs m).tables.map StoredTable.blank = _ from founded_laysOut vs m]
    exact List.mem_map_of_mem mem
  obtain ⟨u, hu, same⟩ := List.mem_map.1 blank
  have name : u.name = first.name := congrArg StoredTable.name same
  refine ⟨u, hu, by rw [name]; exact named, first.rows ++ more, ?_⟩
  rw [same]
  rfl

variable (compiles : m.Compiles)
include compiles

theorem there {t : Table} (mem : t ∈ m.tables) : (db.table? t.name).isSome = true := by
  obtain ⟨more, grown⟩ := settled.grown t.name
  rw [grown, (founded_consistent compiles).table? compiles mem]
  rfl

end Settled

/-! ### Loading -/

theorem Gains.elsewhere {kind : StoredTable V → Insert → Prop} (gains : Gains vs kind db db') {name : String}
    (other : ∀ t i, kind t i → db.table? i.table = some t → Text.lower i.table ≠ Text.lower name) :
    db'.table? name = db.table? name := by
  cases gains with
  | nothing same => exact same.table? name
  | @row t i row sequences _ insertion found made added =>
    have same : (db.addRow i.table row).SameRows db' := added
    rw [same.table?, table?_addRow]
    cases there : db.table? name with
    | none => rfl
    | some u =>
      have named : Text.lower u.name = Text.lower name := sameName_iff.1 (table?_mem there).2
      have apart : ¬ sameName u.name i.table = true := fun same =>
        other t i insertion found ((sameName_iff.1 same).symm.trans named)
      rw [Option.map_some, if_neg apart]

/-- A table of surroundings ends like no table of a hierarchy. -/
theorem relationshipsTable_other {type : String} (valid : Ident.isValid type = true) :
    Text.lower (Schema.relationshipsTable type) ≠ Text.lower Schema.registryTable := by
  have tail : Text.IsAscii "_relationships" := Text.isAscii_iff.2 rfl
  have ascii : Text.IsAscii (Schema.relationshipsTable type) :=
    (Text.isAscii_append _ _).2 ⟨Ident.isValid_ascii valid, tail⟩
  intro same
  rw [Text.lower_ascii ascii, Schema.relationshipsTable, Text.asciiLower_append] at same
  have last := congrArg (·.toList.getLast?) same
  have ends : (Text.asciiLower "_relationships").toList.getLast? = some 's' := by decide
  have other : (Text.lower Schema.registryTable).toList.getLast? = some 'y' := by decide
  simp only [String.toList_append, List.getLast?_append, ends, other] at last
  cases last

/-- A load of a node of any type leaves the hierarchy's table as it is. -/
theorem Settled.gains (compiles : m.Compiles) (settled : Settled vs m db) {l : Label}
    (valid : Ident.isValid l.type = true) (gains : GainsNode vs m.hierarchy l db db') : Settled vs m db' := by
  refine ⟨settled.grown.trans gains.grows, ?_⟩
  obtain ⟨near, ⟨own, first, second⟩, pair⟩ := gains
  rw [pair.elsewhere, second.elsewhere, first.elsewhere]
  · exact settled.registry
  · rintro t i insertion found same
    rw [db.table?_congr same, settled.registry] at found
    cases found
    obtain ⟨c, id⟩ := Option.isSome_iff_exists.1 insertion.numbered
    have mem : c ∈ (stored vs Schema.registry).columns := List.mem_of_find?_eq_some id
    obtain ⟨d, hd, rfl⟩ := (mem_stored_columns vs).1 mem
    have named := List.find?_some (p := fun c : Column => sameName c.name Schema.idColumn) id
    exact compiles.no_id (Model.Compiles.registry_mem m) (by decide) hd (sameName_iff.1 named)
  · rintro t i insertion _
    rw [insertion.table]
    exact relationshipsTable_other valid
  · rintro t i ⟨parent, id, relation, known, table, _⟩ _ same
    have entered := Hierarchy.mem_ofEntries (Hierarchy.relation?_eq_some.1 known)
    obtain ⟨e, he, r, hr, eq⟩ := Model.mem_hierarchyEntries.1 entered
    obtain ⟨source, -, rfl⟩ : parent.1 = e.name.text ∧ l.type = r.target.text ∧ relation = r.name.text := by
      simpa using eq
    rw [table, source] at same
    have one := compiles.table_unique (Model.Compiles.junction_mem he hr) (Model.Compiles.registry_mem m)
      (sameName_iff.2 same)
    cases congrArg Table.kind one

end Database

/-! ### What is remembered -/

namespace Loader

variable {σ α : Type} {store : Store σ} {view : σ → Database V} {enforce : Bool}

/-- What is remembered of columns is right of the database that a store holds, whatever parts of loads do. -/
theorem coupling_coherent (holds : store.Holds vs enforce view) : Coupling store store fun p q =>
    p = q ∧ Coherent (Database.store vs enforce) p.columns (view p.store) := by
  have stable := store_stable vs enforce
  have ask : ∀ path r, Couples (fun p q => p = q ∧ Coherent (Database.store vs enforce) p.columns (view p.store))
      (ask store path r) (ask store path r) := by
    rintro path r p _ ⟨rfl, right⟩
    refine ⟨rfl, rfl, ?_⟩
    have after : Coherent (Database.store vs enforce) p.columns (view (store.answer r p.store).2) := by
      rcases holds r p.store with ⟨_, moved⟩ | ⟨_, _, kept⟩
      · rw [moved]
        exact right.answer stable r (view p.store)
      · rw [kept]
        exact right
    rcases answered : store.answer r p.store with ⟨error | a, s⟩
    · rw [answered] at after
      rw [outcome_ask_error answered]
      exact after
    · rw [answered] at after
      rw [outcome_ask_ok answered]
      exact after
  constructor
  · exact ask
  · rintro path table p _ ⟨rfl, right⟩
    refine ⟨rfl, rfl, ?_⟩
    cases known : p.columns.get? (Text.lower table) with
    | some columns =>
      rw [columnsOf_known store path known]
      exact right
    | none =>
      rw [columnsOf_unknown store path known, outcome_bind]
      have after := (ask path (.columnsOf table) p p ⟨rfl, right⟩).2.2
      rcases answered : store.answer (.columnsOf table) p.store with ⟨error | columns, s⟩
      · rw [outcome_ask_error answered] at after ⊢
        exact after
      · rw [outcome_ask_ok answered] at after ⊢
        dsimp only
        unfold remember
        split
        · exact after
        · next some =>
          have there : ((Database.store vs enforce).answer (.columnsOf table) (view s)).1 = .ok columns := by
            rcases holds (.columnsOf table) p.store with ⟨same, moved⟩ | ⟨_, failed, _⟩
            · rw [answered] at same moved
              exact (congrArg Except.ok (congrArg (fun db : Database V => db.columnsOf table) moved)).trans same.symm
            · rw [answered] at failed
              cases failed
          exact after.insert stable there (Bool.eq_false_iff.2 some)
  · rintro f p _ ⟨rfl, right⟩
    exact ⟨rfl, rfl, right⟩
  · rintro p _ ⟨rfl, _⟩
    rfl

structure Since (vs : ValueSystem V) (enforce : Bool) (view : σ → Database V) (m : Model) (db : Database V)
    (p : Progress σ) : Prop where
  grown : db.Grows (view p.store)
  settled : Settled vs m (view p.store)
  columns : Coherent (Database.store vs enforce) p.columns (view p.store)

section Loads

variable (compiles : m.Compiles) (holds : store.Holds vs enforce view) (settings : LoadSettings) {p : Progress σ}
include compiles holds

theorem visitNode_since (since : Since vs enforce view m db p) (path : NodePath) (parent : Option (String × Int))
    (context : Context) {l : Label} (valid : Ident.isValid l.type = true) : Since vs enforce view m db
      (outcome (visitNode store m.hierarchy settings path parent context l.type l.attributes) p).2 := by
  have leaves := visitNode_leaves holds m.hierarchy settings path parent context l
  have gains : GainsNode vs m.hierarchy l (view p.store)
      (view (outcome (visitNode store m.hierarchy settings path parent context l.type l.attributes) p).2.store) := by
    rcases ended : outcome (visitNode store m.hierarchy settings path parent context l.type l.attributes) p with
      ⟨error | found, q⟩
    · exact (leaves.error ended).node
    · exact leaves.ok ended
  have right := (coupling_coherent holds).visitNode path m.hierarchy settings parent context l.type l.attributes p p
    ⟨rfl, since.columns⟩
  exact ⟨since.grown.trans gains.grows, since.settled.gains compiles valid gains, right.2.2⟩

theorem loadWith_since (since : Since vs enforce view m db p) (t : Tree) :
    Since vs enforce view m db (outcome (loadWith store m.hierarchy settings t) p).2 := by
  cases checked : t.check m.hierarchy settings.maxDepth with
  | error found =>
    rw [loadWith_rejected store checked]
    exact since
  | ok =>
    have conforms := (Tree.check_eq_ok.1 checked).types
    have start : Since vs enforce view m db { p with report := {} } := ⟨since.grown, since.settled, since.columns⟩
    have each : ∀ x ∈ t.trails, ∀ handed q, Since vs enforce view m db q →
        Since vs enforce view m db (outcome (walkNode store m.hierarchy settings handed x) q).2 := by
      intro x mem handed q under
      obtain ⟨parent, context, same, _⟩ := walkNode_visits store m.hierarchy settings handed x q
      rw [same]
      exact visitNode_since compiles holds settings under x.path parent context (conforms x mem)
    have walk := foldlM_keeps (I := Since vs enforce view m db) (b := []) each start
    rw [loadWith_walk store checked]
    rcases ended : outcome (t.trails.foldlM (walkNode store m.hierarchy settings) []) { p with report := {} } with
      ⟨_ | _, q⟩
    · rw [ended] at walk
      exact walk
    · rw [ended] at walk
      exact walk

omit compiles in
/-- The hierarchy is read as the model has it, or it cannot be read. -/
theorem registry_read (ideal : vs.Ideal) {s : σ} (settled : Settled vs m (view s)) :
    view (Registry.load store s).2 = view s ∧ ((∃ error, (Registry.load store s).1 = .error error) ∨
      ∃ g : Hierarchy, g.entries.Perm m.hierarchy.entries ∧ (Registry.load store s).1 = .ok g) := by
  obtain ⟨g, same, read⟩ := load_ok ideal settled.registry enforce
  unfold Registry.load at read ⊢
  have held := holds (.select Registry.selectAll) s
  rcases answered : store.answer (.select Registry.selectAll) s with ⟨error | rows, s'⟩
  · rw [answered] at held
    refine ⟨?_, .inl ⟨_, rfl⟩⟩
    rcases held with ⟨_, moved⟩ | ⟨_, _, kept⟩
    · exact moved
    · exact kept
  · rw [answered] at held
    rcases held with ⟨result, moved⟩ | ⟨_, failed, _⟩
    · refine ⟨moved, .inr ⟨g, same, ?_⟩⟩
      have found : (Database.store vs enforce).answer (.select Registry.selectAll) (view s) = (.ok rows, view s) :=
        Prod.ext result.symm rfl
      rw [found] at read
      exact congrArg Prod.fst read
    · cases failed

theorem load_since (ideal : vs.Ideal) (since : Since vs enforce view m db p) (t : Tree) :
    Since vs enforce view m db (outcome (load store settings t) p).2 := by
  obtain ⟨kept, result⟩ := registry_read holds ideal since.settled
  rcases read : Registry.load store p.store with ⟨error | g, s⟩
  · rw [read] at kept
    rw [outcome_load_error read]
    exact ⟨kept ▸ since.grown, kept ▸ since.settled, kept ▸ since.columns⟩
  · rw [read] at kept result
    obtain ⟨_, failed⟩ | ⟨_, same, found⟩ := result
    · cases failed
    · cases found
      rw [outcome_load read, loadWith_perm _ _ same]
      exact loadWith_since compiles holds settings ⟨kept ▸ since.grown, kept ▸ since.settled, kept ▸ since.columns⟩ t

end Loads

end Loader

/-! ### Applying the schema again -/

theorem Database.create_there {t : Table} (there : (db.table? t.name).isSome = true) :
    db.SameRows (db.create vs t).2 := by
  unfold create
  dsimp only
  rw [addSequence_table?, there]
  split
  · exact addSequence_tables db _
  · next made =>
    obtain ⟨_, _, rest⟩ := bind_eq_ok.1 made
    obtain ⟨_, _, stop⟩ := bind_eq_ok.1 rest
    cases stop

/-- Applying the schema again adds no row. -/
theorem Store.apply_same {σ : Type} {store : Store σ} {view : σ → Database V} {enforce : Bool}
    (holds : store.Holds vs enforce view) (compiles : m.Compiles) (ideal : vs.Ideal) {s : σ}
    (settled : Settled vs m (view s)) : (view s).SameRows (view (store.apply m.schema.statements s).2) := by
  refine Store.apply_stays (P := fun s' => (view s).SameRows (view s')) (fun t mem s' same => ?_)
    (fun e mem s' same => ?_) rfl
  · rcases holds (.create t) s' with ⟨_, moved⟩ | ⟨_, _, kept⟩
    · rw [moved]
      exact Eq.trans (create_there ((settled.same same).there compiles (Model.mem_of_create mem))) same
    · rw [kept]
      exact same
  · obtain ⟨rows, selected, empty⟩ := selectRelation_ok ideal (settled.same same).registry e.parent e.child
    have known : m.hierarchy.has e.parent e.child = true :=
      Hierarchy.has_ofEntries.2 ⟨e, Model.mem_of_register mem, rfl⟩
    unfold Registry.register
    have held := holds (.select (Registry.selectRelation e.parent e.child)) s'
    rcases answered : store.answer (.select (Registry.selectRelation e.parent e.child)) s' with ⟨error | found, s''⟩
    · rw [answered] at held
      rcases held with ⟨_, moved⟩ | ⟨_, _, kept⟩
      · exact moved ▸ same
      · exact kept ▸ same
    · rw [answered] at held
      rcases held with ⟨result, moved⟩ | ⟨_, failed, _⟩
      · obtain rfl : found = rows := Except.ok.inj (result.trans selected)
        cases found with
        | nil =>
          rw [empty.1 rfl] at known
          cases known
        | cons row rows => exact moved ▸ same
      · cases failed

/-! ### Whatever is done -/

namespace LoadState

variable (vs m) (enforce : Bool)

structure Settled (s : LoadState V) : Prop where
  database : Database.Settled vs m s.database
  columns : ∀ l, Coherent (store vs enforce) (s.columns l) s.database

variable {vs m} {s : LoadState V} (compiles : m.Compiles) (ideal : vs.Ideal)
include compiles ideal

theorem founded_settled : Settled vs m enforce (founded vs enforce m.schema) where
  database := by
    rw [founded_database enforce compiles ideal]
    exact ⟨.refl _, (founded_consistent compiles).registryTable?⟩
  columns := fun _ => coherent_empty _

variable {enforce}

/-- A load of any tree keeps it, also if requests fail. -/
theorem Settled.run {σ : Type} {store : Store σ} {view : σ → Database V} (holds : store.Holds vs enforce view)
    (settled : Settled vs m enforce s) (start : σ) (held : view start = s.database) (c : LoadCall) :
    let after := Loader.run (Loader.load store c.settings c.tree) (s.columns c.loader) start
    Settled vs m enforce { database := view after.2.2,
                           columns := fun l => if l = c.loader then after.2.1 else s.columns l } := by
  have since : Since vs enforce view m s.database { store := start, columns := s.columns c.loader } :=
    ⟨held ▸ .refl _, held ▸ settled.database, held ▸ settled.columns c.loader⟩
  have after := load_since compiles holds c.settings ideal since c.tree
  refine ⟨after.settled, fun l => ?_⟩
  dsimp only
  split
  · exact after.columns
  · intro table found known
    obtain ⟨there, some⟩ := settled.columns l table found known
    exact ⟨(congrArg Except.ok (after.grown.columnsOf table)).trans there, some⟩

theorem Settled.act (settled : Settled vs m enforce s) (a : Action) :
    Settled vs m enforce (s.act vs enforce m.schema a) := by
  -- Where no row is added the catalog says what it said.
  have same {db : Database V} (same : s.database.SameRows db) :
      Settled vs m enforce { s with database := db } := by
    refine ⟨settled.database.same same, fun l table found known => ?_⟩
    obtain ⟨there, some⟩ := settled.columns l table found known
    exact ⟨(congrArg Except.ok (same.grows.columnsOf table)).trans there, some⟩
  have holds := store_holds vs enforce
  cases a with
  | load c => exact settled.run compiles ideal holds s.database rfl c
  | cut c faults => exact settled.run compiles ideal holds.failing (s.database, faults) rfl c
  | apply => exact same (Store.apply_same holds compiles ideal settled.database)
  | applyCut faults =>
    exact same (Store.apply_same (s := (s.database, faults)) holds.failing compiles ideal settled.database)

theorem Settled.acts (settled : Settled vs m enforce s) (actions : List Action) :
    Settled vs m enforce (actions.foldl (LoadState.act vs enforce m.schema) s) := by
  induction actions generalizing s with
  | nil => exact settled
  | cons a rest ih => exact ih (settled.act compiles ideal a)

end LoadState

end TreeStore
