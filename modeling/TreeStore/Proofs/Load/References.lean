import TreeStore.Proofs.Load.Surroundings
import TreeStore.Proofs.Load.Uniqueness

/-! References that the store need not watch. In every state that loads lead to, also if they are cut short, an id in
a table of pairs or of surroundings is that of a row of the table that its column references. -/

namespace TreeStore

open Database Loader

variable {V : Type}

/-- A row of a table of ids holds ids of rows that are there, each in a column for its entity, and the row of a leaf
holds an id of the leaf itself. -/
inductive RefersRow (m : Model) (db : Database V) : Table → Cells V → Prop
  | pair {e : Entity} {r : Relation} {n k : Int} (entity : e ∈ m.entities) (own : r ∈ e.relations)
      (parent : db.HasId e.name.text n) (child : db.HasId r.target.text k) :
      RefersRow m db (Schema.junction e.name r) (idRow [some n, some k])
  | leaf {e : Entity} {context : Context} (entity : e ∈ m.entities) (carried : Carried m db context)
      (self : (context.get? e.name.text).isSome = true) :
      RefersRow m db (Schema.relationships m m.hierarchy e.name)
        (idRow (contextIds context (Schema.relationships m m.hierarchy e.name)))

def Referring (m : Model) (db : Database V) : Prop :=
  ∀ t ∈ m.tables, t.kind = .junction ∨ t.kind = .relationships → ∀ row ∈ db.rowsOf t.name, RefersRow m db t row

variable {vs : ValueSystem V} {m : Model} {x : Trail} {t : Table} {row : Cells V} {db db' : Database V}
  {report report' : LoadReport}

theorem RefersRow.grows (grows : db.Grows db') (refers : RefersRow m db t row) : RefersRow m db' t row := by
  cases refers with
  | pair entity own parent child => exact .pair entity own (parent.grows grows) (child.grows grows)
  | leaf entity carried self =>
    exact .leaf entity ⟨carried.entities, fun x mem => (carried.there x mem).grows grows⟩ self

/-! ### Steps -/

/-- Rows may be added that refer to what is there. -/
theorem Referring.step (referring : Referring m db) (grows : db.Grows db')
    (rows : ∀ t ∈ m.tables, t.kind = .junction ∨ t.kind = .relationships → ∀ row ∈ db'.rowsOf t.name,
      row ∈ db.rowsOf t.name ∨ RefersRow m db t row) : Referring m db' := by
  intro t mem kind row hrow
  rcases rows t mem kind row hrow with old | refers
  · exact (referring t mem kind row old).grows grows
  · exact refers.grows grows

section Steps

variable (compiles : m.Compiles)
include compiles

theorem Upserted.referring {attributes : TextMap String} {n : Int} (before : Consistent vs m db)
    (table : m.TableFor x.node.type t) (upserted : Upserted vs m t attributes db report n db' report')
    (referring : Referring m db) : Referring m db' := by
  refine referring.step upserted.grows fun u mem kind row hrow => .inl ?_
  cases upserted with
  | found first number => exact hrow
  | added new next left =>
    have other : u ≠ t := by
      rintro rfl
      simp [table.kind] at kind
    have drawn := before.there.draw (Schema.sequenceOf t.name)
    rw [drawn.rowsOf_addRow compiles table.mem mem, if_neg other] at hrow
    exact hrow

theorem Surrounded.referring (before : Consistent vs m db) (lawful : Lawful m x.line) (bears : x.node.bears = true)
    (knows : db.Knows vs x.line) (surrounded : Surrounded vs m x db report db' report') (referring : Referring m db) :
    Referring m db' := by
  refine referring.step surrounded.grows fun u mem kind row hrow => ?_
  cases surrounded with
  | inner inner => exact .inl hrow
  | @leaf e _ _ entity name leaf noted =>
    have table := Model.Compiles.relationships_mem entity leaf
    have nearest : nearest? e.name.text x.line = some x.node := by simp [nearest?, Trail.line, bears, name]
    have self : ((db.contextOf vs x.line).get? e.name.text).isSome = true := by
      rw [contextOf_get? knows, nearest]
      exact knows x.node List.mem_cons_self bears
    apply (noted.rowsOf (t := Schema.relationships m m.hierarchy e.name) compiles table before.there mem hrow).imp_right
    rintro ⟨rfl, rfl⟩
    exact .leaf entity (carried_contextOf lawful) self

theorem Paired.referring {settings : LoadSettings} (before : Consistent vs m db)
    (paired : Paired vs m settings x db report db' report') (referring : Referring m db) : Referring m db' := by
  refine referring.step paired.grows fun u mem kind row hrow => ?_
  cases paired with
  | apart apart => exact .inl hrow
  | @pair e r _ _ _ _ asked entity own first target above id noted =>
    have table := Model.Compiles.junction_mem entity own
    obtain ⟨p, _, source, parent⟩ := parentOf_eq_some.1 above
    rw [idAt_bearing (idAt_bears parent), source] at parent
    rw [idAt_bearing (idAt_bears id), ← target] at id
    apply (noted.rowsOf (t := Schema.junction e.name r) compiles table before.there mem hrow).imp_right
    rintro ⟨rfl, rfl⟩
    exact .pair entity own (hasId_of_numberOf parent) (hasId_of_numberOf id)

theorem stepsKeep_referring : StepsKeep vs m (Referring m) where
  upserted := fun before table upserted => upserted.referring compiles before table
  surrounded := fun before lawful bears knows surrounded => surrounded.referring compiles before lawful bears knows
  paired := fun before _ _ paired => paired.referring compiles before
  refused := fun _ refused referring => referring.step refused.grows fun _ _ _ _ hrow => .inl (refused.rowsOf _ ▸ hrow)

theorem founded_referring : Referring m (founded vs m) := by
  intro t mem kind row hrow
  have data : t.kind ≠ .registry := by rcases kind with kind | kind <;> simp [kind]
  rw [founded_rowsOf compiles (mem_dataTables mem data)] at hrow
  cases hrow

end Steps

/-! ### Cells -/

/-- A row with an id is in the table of just this name. -/
def Database.KeepsId (db : Database V) (table : String) (n : Int) : Prop :=
  ∃ t ∈ db.tables, t.name = table ∧ ∃ row ∈ t.rows, t.cell row Schema.idColumn = some (.id n)

/-- The columns of a table reference tables of entities, and its cells are null or ids of rows there. -/
def StoredTable.KeepsReferences (m : Model) (db : Database V) (t : StoredTable V) : Prop :=
  ∀ c ∈ t.columns, ∃ e ∈ m.entities, c.references? = some e.name.text ∧
    ∀ row ∈ t.rows, ∀ x, t.cell row c.name = some x → ∃ n, x = .id n ∧ db.KeepsId e.name.text n

/-- All references from pairs and from surroundings lead to rows, and a row of a leaf's surroundings has the id of the
leaf. -/
structure Database.Referential (m : Model) (db : Database V) : Prop where
  pairs : ∀ e ∈ m.entities, ∀ r ∈ e.relations, ∃ t, db.table? (Schema.junctionTable e.name.text r.name.text) = some t ∧
    t.columns.map (fun c => (c.name, c.references?)) = [(Schema.contextColumn e.name.text, some e.name.text),
      (Schema.junctionTarget e.name.text r.target.text, some r.target.text)] ∧ t.KeepsReferences m db
  surroundings : ∀ e ∈ m.entities, e.relations = [] → ∃ t, db.table? (Schema.relationshipsTable e.name.text) = some t ∧
    (∀ c ∈ t.columns, ∃ f ∈ m.entities, c.name = Schema.contextColumn f.name.text ∧
      c.references? = some f.name.text) ∧ t.KeepsReferences m db ∧
    ∀ row ∈ t.rows, (t.cell row (Schema.contextColumn e.name.text)).isSome = true

theorem tableAt_cell (name : String) : (db.tableAt vs t).cell row name = (stored vs t).cell row name := rfl

theorem junction_references (source : Name) (r : Relation) :
    (stored vs (Schema.junction source r)).columns.map (fun c => (c.name, c.references?)) =
      [(Schema.contextColumn source.text, some source.text),
        (Schema.junctionTarget source.text r.target.text, some r.target.text)] := rfl

section Cells

variable (compiles : m.Compiles)
include compiles

theorem Database.HasId.keepsId (consistent : Consistent vs m db) {e : Entity} (he : e ∈ m.entities) {n : Int}
    (there : db.HasId e.name.text n) : db.KeepsId e.name.text n := by
  obtain ⟨u, found, row, mem, cell⟩ := there
  obtain ⟨t, table⟩ := compiles.tableFor ⟨e, he, rfl⟩
  have known := consistent.table? compiles table.mem
  rw [table.name] at known
  obtain rfl := Option.some.inj (found.symm.trans known)
  exact ⟨_, List.mem_of_find?_eq_some found, table.name, row, mem, cell⟩

theorem context_cell (mem : t ∈ m.tables) {context : Context} (carried : Carried m db context) {c : Column}
    (hc : c ∈ (stored vs t).columns) {f : Entity} (hf : f ∈ m.entities)
    (name : c.name = Schema.contextColumn f.name.text) :
    (stored vs t).cell (idRow (contextIds context t)) c.name = (context.get? f.name.text).map .id := by
  have distinct : (stored vs t).Distinct := stored_distinct vs (compiles.columns_distinct mem)
  have ids : (catalog vs t).map (contextId? context) = contextIds context t := catalog_contextIds context t
  have chosen := contextId?_eq compiles (c := c.inCatalog) carried.entities hf name
  rw [← ids, catalog, idRow, List.map_map, List.map_map, ← chosen]
  exact StoredTable.cell_map distinct _ hc (sameName_self _)

variable (vs) in
theorem pair_cells {e : Entity} (he : e ∈ m.entities) {r : Relation} (hr : r ∈ e.relations) (n k : Int) :
    (stored vs (Schema.junction e.name r)).cell (idRow [some n, some k]) (Schema.contextColumn e.name.text) =
        some (.id n) ∧
      (stored vs (Schema.junction e.name r)).cell (idRow [some n, some k])
        (Schema.junctionTarget e.name.text r.target.text) = some (.id k) := by
  have distinct : (stored vs (Schema.junction e.name r)).Distinct :=
    stored_distinct vs (compiles.columns_distinct (Model.Compiles.junction_mem he hr))
  constructor
  · rw [StoredTable.cell_eq (i := 0) distinct rfl (sameName_self _)]
    rfl
  · rw [StoredTable.cell_eq (i := 1) distinct rfl (sameName_self _)]
    rfl

/-- Every cell of such a row is null or the id of a row of the table that its column references. -/
theorem RefersRow.cell (consistent : Consistent vs m db) (mem : t ∈ m.tables) (refers : RefersRow m db t row)
    {c : Column} (hc : c ∈ (stored vs t).columns) {x : Cell V} (cell : (stored vs t).cell row c.name = some x) :
    ∃ e ∈ m.entities, c.references? = some e.name.text ∧ ∃ n, x = .id n ∧ db.KeepsId e.name.text n := by
  cases refers with
  | @pair e r n k entity own parent child =>
    obtain ⟨f, hf, target⟩ := compiles.target_mem entity own
    obtain ⟨first, second⟩ := pair_cells vs compiles entity own n k
    rcases List.mem_pair.1 hc with rfl | rfl
    · cases first.symm.trans cell
      exact ⟨e, entity, rfl, n, rfl, parent.keepsId compiles consistent entity⟩
    · cases second.symm.trans cell
      rw [← target] at child
      exact ⟨f, hf, congrArg (fun n : Name => some n.text) target.symm, k, rfl, child.keepsId compiles consistent hf⟩
  | @leaf e context entity carried self =>
    obtain ⟨f, hf, name, _, references⟩ := relationships_stored entity hc
    rw [context_cell compiles mem carried hc hf name] at cell
    obtain ⟨n, given, rfl⟩ := Option.map_eq_some_iff.1 cell
    have there := carried.there (f.name.text, n) (context.get?_eq_some.1 given)
    exact ⟨f, hf, references, n, rfl, there.keepsId compiles consistent hf⟩

theorem RefersRow.own {e : Entity} (he : e ∈ m.entities) (leaf : m.hierarchy.isLeaf e.name.text = true)
    (refers : RefersRow m db t row) (table : t = Schema.relationships m m.hierarchy e.name) :
    ((stored vs t).cell row (Schema.contextColumn e.name.text)).isSome = true := by
  cases refers with
  | pair entity own parent child => cases congrArg Table.kind table
  | @leaf f context entity carried self =>
    have names := Model.relationshipsTable_injective (congrArg Table.name table)
    obtain rfl := compiles.wellNamed.entity_of_text entity he names
    have own : Schema.context f.name.text ∈ (Schema.relationships m m.hierarchy f.name).columns :=
      List.mem_append_right _ (List.mem_singleton.2 rfl)
    have cell := context_cell compiles (Model.Compiles.relationships_mem entity leaf) carried
      ((mem_stored_columns vs).2 ⟨_, own, rfl⟩) entity rfl
    refine (congrArg Option.isSome cell).trans ?_
    rw [Option.isSome_map, self]

theorem id_references (mem : t ∈ m.tables) (kind : t.kind = .junction ∨ t.kind = .relationships) {c : Column}
    (hc : c ∈ (stored vs t).columns) : ∃ e ∈ m.entities, c.references? = some e.name.text := by
  rcases compiles.wellNamed.mem_tables mem with rfl | ⟨e, he, _, rfl⟩ | ⟨e, he, r, hr, rfl⟩ | ⟨e, he, _, rfl⟩
  · simp [Schema.registry] at kind
  · simp [Schema.entityTable] at kind
  · obtain ⟨f, hf, target⟩ := compiles.target_mem he hr
    rcases List.mem_pair.1 hc with rfl | rfl
    · exact ⟨e, he, rfl⟩
    · exact ⟨f, hf, congrArg (fun n : Name => some n.text) target.symm⟩
  · obtain ⟨f, hf, _, _, references⟩ := relationships_stored he hc
    exact ⟨f, hf, references⟩

theorem Referring.keepsReferences (consistent : Consistent vs m db) (referring : Referring m db) (mem : t ∈ m.tables)
    (kind : t.kind = .junction ∨ t.kind = .relationships) : (db.tableAt vs t).KeepsReferences m db := by
  intro c hc
  obtain ⟨e, he, references⟩ := id_references compiles mem kind hc
  refine ⟨e, he, references, fun row hrow x cell => ?_⟩
  rw [tableAt_cell] at cell
  obtain ⟨f, _, same, there⟩ := (referring t mem kind row hrow).cell compiles consistent mem hc cell
  rw [Option.some.inj (references.symm.trans same)]
  exact there

theorem Referring.referential (consistent : Consistent vs m db) (referring : Referring m db) : db.Referential m where
  pairs := fun e he r hr => by
    have mem := Model.Compiles.junction_mem he hr
    have found := consistent.table? compiles mem
    exact ⟨_, found, junction_references e.name r, referring.keepsReferences compiles consistent mem (.inl rfl)⟩
  surroundings := fun e he none => by
    have leaf := (compiles.wellNamed.isLeaf_iff he).2 none
    have mem := Model.Compiles.relationships_mem he leaf
    have found := consistent.table? compiles mem
    refine ⟨_, found, fun c hc => ?_, referring.keepsReferences compiles consistent mem (.inr rfl), fun row hrow => ?_⟩
    · obtain ⟨f, hf, name, _, references⟩ := relationships_stored he hc
      exact ⟨f, hf, name, references⟩
    · rw [tableAt_cell]
      exact (referring _ mem (.inr rfl) row hrow).own compiles he leaf rfl

end Cells

/-- Whatever is loaded into a database, wherever that is cut short, and whether or not the store watches references, all
ids in the tables of pairs and of surroundings are those of rows of the tables that their columns reference, and the
surroundings of a leaf are never without the leaf. -/
theorem references_kept (ideal : vs.Ideal) (enforce : Bool) {schema : Schema} (compiled : Schema.ofModel m = .ok schema)
    (actions : List Action) (rooted : ∀ a ∈ actions, a.RootedIn m) :
    (actions.foldl (LoadState.act vs enforce schema) (.founded vs enforce schema)).database.Referential m := by
  obtain ⟨rfl, compiles⟩ := ofModel_ok.1 compiled
  have sound := LoadState.founded_sound enforce compiles ideal
  have start : Referring m (LoadState.founded vs enforce m.schema).database := by
    rw [LoadState.founded_database enforce compiles ideal]
    exact founded_referring compiles
  obtain ⟨sound', kept⟩ := LoadState.acts_keeps enforce compiles ideal (stepsKeep_referring compiles) sound start rooted
  exact kept.referential compiles sound'.consistent

/-- Without a store that watches references they are kept also if the load of a box is cut short. -/
theorem references_kept_cut :
    let db := (Sample.cutShort.foldl (LoadState.act ColumnValue.system false Sample.boxes.schema)
      (.founded ColumnValue.system false Sample.boxes.schema)).database
    (db.rowsOf "relation_Box_in").length = 1 ∧ db.Referential Sample.boxes := by
  refine ⟨by decide +kernel, ?_⟩
  refine references_kept ColumnValue.system_ideal false Sample.boxes_compile Sample.cutShort ?_
  simp [Sample.cutShort, Action.RootedIn, Sample.loading, Sample.box_rooted]

end TreeStore
