import TreeStore.Proofs.Load.Settled

/-! Trees with a node that is spelled like no entity. The check refuses such a tree unless the node is the root and
stands alone, for only children are looked up in the hierarchy. The tables of a store are found in any case, so a
root that differs from an entity in case only gets a row of that entity, and is taken for a leaf. -/

namespace TreeStore

open Database Loader

variable {V : Type} {vs : ValueSystem V} {m : Model}

/-! ### The check -/

namespace Tree

variable {maxDepth : Nat} {t : Tree}

/-- All nodes are of entities if the root is. -/
theorem unrooted_of_misspelled (compiles : m.Compiles) (checked : t.check m.hierarchy maxDepth = .ok ()) {x : Trail}
    (mem : x ∈ t.trails) (misspelled : ∀ e ∈ m.entities, e.name.text ≠ x.node.type) : ¬ t.RootedIn m := by
  intro root
  obtain ⟨e, he, same⟩ := (trails_lawful compiles root checked x mem).entities x.node List.mem_cons_self
  exact misspelled e he same

/-- Nothing may stand below a type that is no entity. -/
theorem single_of_unrooted (checked : t.check m.hierarchy maxDepth = .ok ()) (unrooted : ¬ t.RootedIn m) :
    t.children = [] := by
  obtain ⟨type, attributes, children⟩ := t
  cases children with
  | nil => rfl
  | cons c rest =>
    rw [check, checkAt] at checked
    cases own : ownViolation? maxDepth ⟨type, []⟩ type attributes.keys with
    | some v =>
      rw [own] at checked
      cases checked
    | none =>
      rw [own, checkChildren] at checked
      cases linked : m.hierarchy.has type c.type with
      | false => simp [linked] at checked
      | true =>
        obtain ⟨entry, entered, pair⟩ := Hierarchy.has_ofEntries.1 linked
        obtain ⟨e, he, r, _, rfl⟩ := Model.mem_hierarchyEntries.1 entered
        exact absurd ⟨e, he, congrArg Prod.fst pair⟩ unrooted

theorem trails_single (single : t.children = []) : t.trails = [⟨⟨t.type, []⟩, t.label, []⟩] := by
  obtain ⟨type, attributes, children⟩ := t
  cases single
  rfl

end Tree

/-! ### Types of no entity, whatever the case -/

variable {db : Database V} {enforce : Bool} {p : Progress (Database V)}

theorem Database.Settled.unnumbered (settled : Settled vs m db) (compiles : m.Compiles) {type : String}
    (unknown : ∀ e ∈ m.entities, sameName e.name.text type = false) :
    (db.columnsOf type).any (Text.sameIgnoringCase ·.name Schema.idColumn) = false := by
  cases found : db.table? type with
  | none => simp [columnsOf, found]
  | some t =>
    obtain ⟨u, hu, named, rows, rfl⟩ := settled.table found
    have kind : u.kind ≠ .entity := by
      intro entity
      obtain ⟨e, he, created, rfl⟩ := compiles.entity_kind hu entity
      exact absurd named (Bool.eq_false_iff.1 (unknown e he))
    simp only [columnsOf, found, Option.map_some, Option.getD_some, List.any_eq_false, List.mem_map]
    rintro _ ⟨c, hc, rfl⟩ same
    obtain ⟨d, hd, rfl⟩ := (mem_stored_columns vs).1 hc
    have ascii := Ident.isValid_ascii ((compiles.table_checked hu).2 d hd)
    rw [sameIgnoringCase_ascii ascii StoredTable.isAscii_idColumn, sameName_iff] at same
    exact compiles.no_id hu kind hd same

namespace Loader

/-- A node of a type that no entity has, whatever the case, is refused before anything is written. -/
theorem upsert_unnumbered (coherent : Coherent (store vs enforce) p.columns p.store) (h : Hierarchy) (path : NodePath)
    {type : String} (attributes : TextMap String)
    (none : (p.store.columnsOf type).any (Text.sameIgnoringCase ·.name Schema.idColumn) = false) :
    ∃ error columns,
      outcome (upsert (store vs enforce) h path type attributes) p = (.error error, { p with columns }) := by
  obtain ⟨columns, _, found⟩ := columnsOf_found (store_stable vs enforce) path coherent type
  rw [show ((store vs enforce).answer (.columnsOf type) p.store).1 = .ok (p.store.columnsOf type) from rfl,
    columnsFound] at found
  rw [upsert_eq]
  cases empty : (p.store.columnsOf type).isEmpty with
  | true =>
    rw [empty, if_pos rfl] at found
    exact ⟨_, columns, outcome_bind_error found⟩
  | false =>
    rw [empty, if_neg Bool.false_ne_true] at found
    have unfit : operandsFor h path type attributes (p.store.columnsOf type) = .error (.misfit path (.noId type)) := by
      simp [operandsFor, none]
    refine ⟨.misfit path (.noId type), columns, ?_⟩
    rw [outcome_bind_ok found, unfit]
    rfl

end Loader

/-! ### Loading -/

/-- How a load of a tree ends that has a node spelled like no entity. -/
inductive MisspelledEnds (vs : ValueSystem V) (m : Model) (t : Tree) (db : Database V) :
    Except LoadError LoadReport → Database V → Prop
  | refused {error : LoadError} {db' : Database V} (same : db.SameRows db') :
      MisspelledEnds vs m t db (.error error) db'
  | container {report : LoadReport} {db' : Database V} (single : t.children = []) (bare : t.label.bears = false)
      (same : db.SameRows db') : MisspelledEnds vs m t db (.ok report) db'
  | taken {result : Except LoadError LoadReport} {db' : Database V} (single : t.children = [])
      (bears : t.label.bears = true) {e : Entity} (mem : e ∈ m.entities)
      (alike : sameName e.name.text t.type = true) (gains : db.GainsOwn vs m.hierarchy t.label db') :
      MisspelledEnds vs m t db result db'

namespace Loader

/-- A tree of one node is loaded by visiting the node. -/
theorem loadWith_single {σ : Type} (store : Store σ) {h : Hierarchy} {settings : LoadSettings} {t : Tree}
    (checked : t.check h settings.maxDepth = .ok ()) (single : t.children = []) (p : Progress σ) :
    outcome (loadWith store h settings t) p =
      match outcome (visitNode store h settings ⟨t.type, []⟩ none .empty t.type t.attributes)
        { p with report := {} } with
      | (.ok _, q) => (.ok q.report, q)
      | (.error e, q) => (.error e, q) := by
  have level : ([] : List Handed).length = ([] : List Label).length := rfl
  have node := walkNode_level store h settings (x := ⟨⟨t.type, []⟩, t.label, []⟩) level []
  rw [loadWith_walk store checked, Tree.trails_single single, List.foldlM_cons]
  simp only [List.foldlM_nil, bind_pure]
  rw [List.nil_append] at node
  rw [node, outcome_bind]
  have visited : visitNode store h settings ⟨t.type, []⟩ (lowest []).1 (lowest []).2 t.label.type t.label.attributes =
    visitNode store h settings ⟨t.type, []⟩ none .empty t.type t.attributes := rfl
  rw [visited]
  rcases outcome (visitNode store h settings ⟨t.type, []⟩ none .empty t.type t.attributes) { p with report := {} } with
    ⟨_ | _, _⟩
  · rfl
  · rfl

variable (compiles : m.Compiles)
include compiles

/-- No relation leads to a type that is no entity, so a node of it makes no pair. -/
theorem own_of_unrooted {l : Label} {db' : Database V} (unrooted : ¬ ∃ e ∈ m.entities, e.name.text = l.type)
    (gains : GainsNode vs m.hierarchy l db db') : GainsOwn vs m.hierarchy l db db' := by
  obtain ⟨near, own, pair⟩ := gains
  cases pair with
  | nothing same =>
    obtain ⟨mid, first, second⟩ := own
    exact ⟨mid, first, second.then_same same⟩
  | row insertion found made added =>
    obtain ⟨parent, id, relation, known, _⟩ := insertion
    have entered := Hierarchy.mem_ofEntries (Hierarchy.relation?_eq_some.1 known)
    obtain ⟨e, he, r, hr, eq⟩ := Model.mem_hierarchyEntries.1 entered
    obtain ⟨f, hf, target⟩ := compiles.target_mem he hr
    have type : l.type = r.target.text := congrArg HierarchyEntry.child eq
    exact absurd ⟨f, hf, by rw [target, type]⟩ unrooted

theorem loadWith_misspelled (settings : LoadSettings) {t : Tree} (settled : Settled vs m p.store)
    (coherent : Coherent (store vs enforce) p.columns p.store) {x : Trail} (mem : x ∈ t.trails)
    (misspelled : ∀ e ∈ m.entities, e.name.text ≠ x.node.type) : MisspelledEnds vs m t p.store
      (outcome (loadWith (store vs enforce) m.hierarchy settings t) p).1
      (outcome (loadWith (store vs enforce) m.hierarchy settings t) p).2.store := by
  cases checked : t.check m.hierarchy settings.maxDepth with
  | error found =>
    rw [loadWith_rejected _ checked]
    exact .refused rfl
  | ok =>
    have unrooted := Tree.unrooted_of_misspelled compiles checked mem misspelled
    have single := Tree.single_of_unrooted checked unrooted
    rw [loadWith_single _ checked single]
    cases bears : t.label.bears with
    | false =>
      have bare : t.attributes.isEmpty = true := by simpa [Label.bears, Tree.label] using bears
      unfold visitNode
      rw [bare]
      exact .container single bears rfl
    | true =>
      have attributes : t.attributes.isEmpty = false := by simpa [Label.bears, Tree.label] using bears
      by_cases known : ∃ e ∈ m.entities, sameName e.name.text t.type = true
      · obtain ⟨e, he, alike⟩ := known
        have leaves := visitNode_leaves (store_holds vs enforce) m.hierarchy settings ⟨t.type, []⟩ none .empty t.label
        rcases ended : outcome (visitNode (store vs enforce) m.hierarchy settings ⟨t.type, []⟩ none .empty t.type
          t.attributes) { p with report := {} } with ⟨error | found, q⟩
        · have own : GainsOwn vs m.hierarchy t.label p.store q.store :=
            leaves.error (p := { p with report := {} }) ended
          exact .taken single bears he alike own
        · have gains : GainsNode vs m.hierarchy t.label p.store q.store :=
            leaves.ok (p := { p with report := {} }) ended
          exact .taken single bears he alike (own_of_unrooted compiles unrooted gains)
      · -- The catalog minds no case, but there is no such table at all, or one without ids.
        have unknown : ∀ e ∈ m.entities, sameName e.name.text t.type = false := fun e he =>
          Bool.eq_false_iff.2 fun alike => known ⟨e, he, alike⟩
        obtain ⟨error, columns, refused⟩ := upsert_unnumbered (p := { p with report := {} }) coherent m.hierarchy
          ⟨t.type, []⟩ t.attributes (settled.unnumbered compiles unknown)
        rw [visitNode_bearing _ _ _ _ _ _ _ attributes, outcome_bind_error refused]
        exact .refused rfl

end Loader

/-- Whatever has been done, a load of a tree with a node spelled like no entity adds no row, unless the node is all
there is of the tree, has attributes and differs from an entity in case only. Then it adds at most a row of its own
and a row of its surroundings. -/
theorem misspelled_type (ideal : vs.Ideal) (enforce : Bool) {schema : Schema}
    (compiled : Schema.ofModel m = .ok schema) (actions : List Action) (c : LoadCall) {x : Trail}
    (node : x ∈ c.tree.trails) (misspelled : ∀ e ∈ m.entities, e.name.text ≠ x.node.type) :
    let s := actions.foldl (LoadState.act vs enforce schema) (.founded vs enforce schema)
    MisspelledEnds vs m c.tree s.database (s.load vs enforce c).1 (s.load vs enforce c).2.database := by
  obtain ⟨rfl, compiles⟩ := ofModel_ok.1 compiled
  intro s
  have settled := (LoadState.founded_settled enforce compiles ideal).acts compiles ideal actions
  obtain ⟨g, same, read⟩ := load_ok ideal settled.database.registry enforce
  have loaded : outcome (load (store vs enforce) c.settings c.tree)
      { store := s.database, columns := s.columns c.loader } =
        outcome (loadWith (store vs enforce) m.hierarchy c.settings c.tree)
          { store := s.database, columns := s.columns c.loader } := by
    rw [outcome_load read, loadWith_perm _ _ same]
  have ends := Loader.loadWith_misspelled (p := { store := s.database, columns := s.columns c.loader }) compiles
    c.settings settled.database (settled.columns c.loader) node misspelled
  rw [← loaded] at ends
  exact ends

namespace Sample

def smallItem : LoadCall := ⟨0, {}, ⟨"item", .ofList [("n", "x")], []⟩⟩

def smallBox : LoadCall := ⟨0, {}, ⟨"box", .ofList [("size", "7")], []⟩⟩

end Sample

/-- The row stays, although boxes are no leaves, and no table is there for surroundings of a box. -/
theorem misspelled_type_box :
    let s := [Action.load (Sample.item "x")].foldl (LoadState.act ColumnValue.system true Sample.boxes.schema)
      (.founded ColumnValue.system true Sample.boxes.schema)
    let after := s.load ColumnValue.system true Sample.smallBox
    (∀ e ∈ Sample.boxes.entities, e.name.text ≠ "box") ∧
      after.1 = .error (.misfit ⟨"box", []⟩ (.noTable "box_relationships")) ∧
      (after.2.database.rowsOf "Box").length = (s.database.rowsOf "Box").length + 1 ∧
      MisspelledEnds ColumnValue.system Sample.boxes Sample.smallBox.tree s.database after.1 after.2.database := by
  have misspelled : ∀ e ∈ Sample.boxes.entities, e.name.text ≠ "box" := by decide
  refine ⟨misspelled, by decide +kernel, by decide +kernel, ?_⟩
  exact misspelled_type ColumnValue.system_ideal true Sample.boxes_compile [.load (Sample.item "x")] Sample.smallBox
    (x := ⟨⟨"box", []⟩, ⟨"box", .ofList [("size", "7")]⟩, []⟩) List.mem_cons_self misspelled

/-- An item spelled otherwise than its entity is loaded. -/
theorem misspelled_item_loaded : (∀ e ∈ Sample.boxes.entities, e.name.text ≠ "item") ∧
    let s := Sample.start.load ColumnValue.system true Sample.smallItem
    s.1 = .ok { rowsInserted := 1, relationshipsInserted := 1 } ∧
      (s.2.database.rowsOf "Item").length = (Sample.start.database.rowsOf "Item").length + 1 :=
  ⟨by decide, by decide +kernel, by decide +kernel⟩

end TreeStore
