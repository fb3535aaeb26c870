import TreeStore.Proofs.Load.Numbers

/-! Recording ids: the surroundings of a leaf and the pair of a parent and a child. Either row of ids is there
already or is added, and nothing can go wrong, since the tables are there and the ids are those of rows. -/

namespace TreeStore

open Database Loader

variable {V : Type} {vs : ValueSystem V} {m : Model}

inductive Noted (table : String) (row : Cells V) (db : Database V) : Bool → Database V → Prop
  | present (there : row ∈ db.rowsOf table) : Noted table row db false db
  | added (new : row ∉ db.rowsOf table) : Noted table row db true (db.addRow table row)

namespace Noted

variable {db db' : Database V} {table : String} {row : Cells V} {new : Bool}

theorem grows (noted : Noted table row db new db') : db.Grows db' := by
  cases noted with
  | present there => exact .refl db
  | added new => exact .addRow db _ _

variable (compiles : m.Compiles) {t : Table} (mem : t ∈ m.tables)
include compiles mem

theorem consistent {ids : List (Option Int)} (noted : Noted t.name (idRow ids) db new db')
    (kind : t.kind = .junction ∨ t.kind = .relationships) (width : ids.length = t.columns.length)
    (before : Consistent vs m db) : Consistent vs m db' := by
  cases noted with
  | present there => exact before
  | added new => exact before.addIds compiles mem kind width new

theorem mem_rowsOf (noted : Noted t.name row db new db') (there : LaysOut vs m db) : row ∈ db'.rowsOf t.name := by
  cases noted with
  | present there => exact there
  | added new =>
    rw [there.rowsOf_addRow compiles mem mem, if_pos rfl]
    exact List.mem_append_right _ (List.mem_singleton.2 rfl)

theorem rowsOf (noted : Noted t.name row db new db') (there : LaysOut vs m db) {u : Table} (hu : u ∈ m.tables)
    {r : Cells V} (hr : r ∈ db'.rowsOf u.name) : r ∈ db.rowsOf u.name ∨ u = t ∧ r = row := by
  cases noted with
  | present there => exact .inl hr
  | added new =>
    rw [there.rowsOf_addRow compiles mem hu] at hr
    split at hr
    · next eq =>
      rcases List.mem_append.1 hr with hr | hr
      · exact .inl hr
      · exact .inr ⟨eq, List.mem_singleton.1 hr⟩
    · exact .inl hr

end Noted

theorem Noted.of_mem {db db' : Database V} {table : String} {row : Cells V} {new : Bool}
    (noted : Noted table row db new db') (there : row ∈ db.rowsOf table) : new = false ∧ db' = db := by
  cases noted with
  | present _ => exact ⟨rfl, rfl⟩
  | added absent => exact absurd there absent

namespace Loader

/-! ### Ids by column -/

def chosenIds (f : CatalogColumn → Option Int) (columns : List CatalogColumn) : List (String × Int) :=
  columns.filterMap fun c => (f c).map (c.name, ·)

theorem chosenIds_idFor {t : StoredTable V} (distinct : t.Distinct) (f : CatalogColumn → Option Int) {c : Column}
    (mem : c ∈ t.columns) : idFor (chosenIds f (t.columns.map Column.inCatalog)) c = f c.inCatalog := by
  have only : ∀ v ∈ chosenIds f (t.columns.map Column.inCatalog), sameName v.1 c.name = true →
      f c.inCatalog = some v.2 := by
    intro v hv same
    obtain ⟨d, hd, chosen⟩ := List.mem_filterMap.1 hv
    obtain ⟨n, value, rfl⟩ := Option.map_eq_some_iff.1 chosen
    obtain ⟨d', inside, rfl⟩ := List.mem_map.1 hd
    obtain rfl := List.inj_on_of_nodup_map distinct inside mem (sameName_iff.1 same)
    exact value
  cases found : (chosenIds f (t.columns.map Column.inCatalog)).find? (sameName ·.1 c.name) with
  | some v =>
    have same := List.find?_some (p := fun v : String × Int => sameName v.1 c.name) found
    rw [idFor, found, only v (List.mem_of_find?_eq_some found) same]
    rfl
  | none =>
    rw [idFor, found]
    cases value : f c.inCatalog with
    | none => rfl
    | some n =>
      have listed : (c.name, n) ∈ chosenIds f (t.columns.map Column.inCatalog) :=
        List.mem_filterMap.2 ⟨c.inCatalog, List.mem_map_of_mem mem, by rw [value]; rfl⟩
      have absent := List.find?_eq_none.1 found (c.name, n) listed
      rw [sameName_self] at absent
      exact absurd rfl absent

theorem chosenIds_covers {t : StoredTable V} (distinct : t.Distinct) (f : CatalogColumn → Option Int) {c : Column}
    (mem : c ∈ t.columns) {n : Int} (value : f c.inCatalog = some n) :
    t.Covers (chosenIds f (t.columns.map Column.inCatalog))
      (((t.columns.map Column.inCatalog).filter fun c => (f c).isNone).map (·.name)) where
  some := by
    have listed : (c.name, n) ∈ chosenIds f (t.columns.map Column.inCatalog) :=
      List.mem_filterMap.2 ⟨c.inCatalog, List.mem_map_of_mem mem, by rw [value]; rfl⟩
    exact List.ne_nil_of_mem listed
  distinct := by
    have names : ((t.columns.map Column.inCatalog).map (Text.lower ·.name)).Nodup := by
      rw [List.map_map]
      exact distinct
    have sub : (chosenIds f (t.columns.map Column.inCatalog)).map (Text.lower ·.1) =
        (((t.columns.map Column.inCatalog).filter fun c => (f c).isSome).map (Text.lower ·.name)) := by
      rw [chosenIds]
      induction t.columns.map Column.inCatalog with
      | nil => rfl
      | cons c rest ih => cases value : f c <;> simp [value, ih]
    rw [sub]
    exact names.sublist (List.filter_sublist.map _)
  known := by
    intro v hv
    obtain ⟨d, hd, chosen⟩ := List.mem_filterMap.1 hv
    obtain ⟨k, _, rfl⟩ := Option.map_eq_some_iff.1 chosen
    obtain ⟨d', inside, rfl⟩ := List.mem_map.1 hd
    exact ⟨d', inside, sameName_self _⟩
  nulls := by
    intro name
    simp only [List.mem_map, List.mem_filter]
    constructor
    · rintro ⟨_, ⟨⟨d, hd, rfl⟩, none⟩, rfl⟩
      exact ⟨d, hd, rfl, (chosenIds_idFor distinct f hd).trans (Option.isNone_iff_eq_none.1 none)⟩
    · rintro ⟨d, hd, rfl, none⟩
      rw [chosenIds_idFor distinct f hd] at none
      exact ⟨d.inCatalog, ⟨⟨d, hd, rfl⟩, Option.isNone_iff_eq_none.2 none⟩, rfl⟩

/-! ### Inserting unless present -/

variable (enforce : Bool) (compiles : m.Compiles)
include compiles

theorem insertUnlessPresent_outcome {p : Progress (Database V)} (consistent : Consistent vs m p.store) {t : Table}
    (mem : t ∈ m.tables) (kind : t.kind = .junction ∨ t.kind = .relationships) {ids : List (String × Int)}
    {nulls : List String} (covers : (p.store.tableAt vs t).Covers ids nulls)
    (refers : p.store.Refers (p.store.tableAt vs t) ids)
    (path : NodePath) : ∃ new db, Noted t.name ((stored vs t).idsRow ids) p.store new db ∧
      outcome (insertUnlessPresent (store vs enforce) path t.name ids nulls) p = (.ok new, { p with store := db }) := by
  have ofIds := compiles.stored_ofIds vs mem kind (p.store.rowsOf t.name)
  have found := consistent.table? compiles mem
  have rows : IdRows (p.store.tableAt vs t).columns.length (p.store.tableAt vs t).rows := by
    have width : (p.store.tableAt vs t).columns.length = t.columns.length := List.length_map _
    rw [width]
    exact consistent.ids t mem kind
  obtain ⟨answer, selected, empty⟩ := select_ids vs found ofIds rows covers
  have asked : (store vs enforce).answer (.select (idQuery t.name ids nulls)) p.store = (.ok answer, p.store) :=
    congrArg (·, p.store) selected
  have opened : insertUnlessPresent (store vs enforce) path t.name ids nulls = (do
      let found ← ask (store vs enforce) path (.select (idQuery t.name ids nulls))
      if found.isEmpty then
        ask (store vs enforce) path (.insert ⟨t.name, ids.map fun v => (v.1, idOperand v.2)⟩)
        return true
      else return false) := by
    unfold insertUnlessPresent
    dsimp only
    rw [List.map_map]
    rfl
  rw [opened]
  by_cases there : (stored vs t).idsRow ids ∈ p.store.rowsOf t.name
  · have some : answer.isEmpty = false := by
      rw [Bool.eq_false_iff]
      exact fun none => empty.1 none there
    refine ⟨false, p.store, .present there, ?_⟩
    rw [outcome_bind_ok (outcome_ask_ok asked)]
    simp only [some, Bool.false_eq_true, if_false]
    rfl
  · have none : answer.isEmpty = true := empty.2 there
    have inserted := insert_ids vs enforce found ofIds covers refers
    refine ⟨true, _, .added there, ?_⟩
    rw [outcome_bind_ok (outcome_ask_ok asked)]
    simp only [none, if_true]
    exact outcome_bind_ok (outcome_ask_ok inserted)

/-! ### The surroundings of a leaf -/

omit compiles in
theorem idsRow_chosen {t : Table} (distinct : (stored vs t).Distinct) (f : CatalogColumn → Option Int) :
    (stored vs t).idsRow (chosenIds f ((stored vs t).columns.map Column.inCatalog)) =
      idRow ((catalog vs t).map f) := by
  rw [StoredTable.idsRow, catalog, List.map_map]
  congr 1
  exact List.map_congr_left fun c hc => chosenIds_idFor distinct f hc

def contextIds (context : Context) (t : Table) : List (Option Int) :=
  t.columns.map fun c => contextId? context c.inCatalog

omit compiles in
theorem catalog_contextIds (context : Context) (t : Table) :
    (catalog vs t).map (contextId? context) = contextIds context t := by
  rw [catalog, stored, List.map_map, List.map_map]
  rfl

/-- Ids carried down: of entities, and of rows that are there. -/
structure Carried (m : Model) (db : Database V) (context : Context) : Prop where
  entities : ∀ x ∈ context.entries, ∃ e ∈ m.entities, e.name.text = x.1
  there : ∀ x ∈ context.entries, db.HasId x.1 x.2

/-- The id for an entity's column is the one carried for that entity. -/
theorem contextId?_eq {context : Context} (entities : ∀ x ∈ context.entries, ∃ e ∈ m.entities, e.name.text = x.1)
    {f : Entity} (hf : f ∈ m.entities) {c : CatalogColumn} (name : c.name = Schema.contextColumn f.name.text) :
    contextId? context c = context.get? f.name.text := by
  have only : ∀ x ∈ context.entries, Text.sameIgnoringCase (Schema.contextColumn x.1) c.name = true →
      x.1 = f.name.text := by
    intro x hx same
    obtain ⟨e, he, eq⟩ := entities x hx
    rw [name, Schema.contextColumn_same, ← eq,
      sameIgnoringCase_ascii (compiles.entity_ascii he) (compiles.entity_ascii hf)] at same
    rw [← eq, compiles.wellNamed.entity_unique he hf (sameName_iff.1 same)]
  rw [contextId?]
  cases found : context.entries.find? fun e => Text.sameIgnoringCase (Schema.contextColumn e.1) c.name with
  | some x =>
    have same : Text.sameIgnoringCase (Schema.contextColumn x.1) c.name = true :=
      List.find?_some (p := fun x : String × Int => Text.sameIgnoringCase (Schema.contextColumn x.1) c.name) found
    have key := only x (List.mem_of_find?_eq_some found) same
    exact ((context.get?_eq_some).2 (key ▸ List.mem_of_find?_eq_some found)).symm
  | none =>
    cases value : context.get? f.name.text with
    | none => rfl
    | some n =>
      have absent := List.find?_eq_none.1 found (f.name.text, n) (context.get?_eq_some.1 value)
      rw [name, Text.sameIgnoringCase_self] at absent
      exact absurd rfl absent

def noteRelationship (new : Bool) (r : LoadReport) : LoadReport :=
  if new then { r with relationshipsInserted := r.relationshipsInserted + 1 }
  else { r with relationshipsSkipped := r.relationshipsSkipped + 1 }

def noteJunction (new : Bool) (r : LoadReport) : LoadReport :=
  if new then { r with junctionsInserted := r.junctionsInserted + 1 }
  else { r with junctionsSkipped := r.junctionsSkipped + 1 }

omit compiles in
theorem relationships_stored {e : Entity} (he : e ∈ m.entities) {c : Column}
    (hc : c ∈ (stored vs (Schema.relationships m m.hierarchy e.name)).columns) : ∃ f ∈ m.entities,
      c.name = Schema.contextColumn f.name.text ∧ c.notNull = false ∧ c.references? = some f.name.text := by
  obtain ⟨d, hd, rfl⟩ := (mem_stored_columns vs).1 hc
  obtain ⟨f, hf, rfl⟩ := Model.Compiles.relationships_column hd ⟨e, he, rfl⟩
  exact ⟨f, hf, rfl, rfl, rfl⟩

theorem refers_chosen {db : Database V} {context : Context} (carried : Carried m db context) {t : Table}
    (distinct : (stored vs t).Distinct) (contexts : ∀ c ∈ (stored vs t).columns, ∃ f ∈ m.entities,
      c.name = Schema.contextColumn f.name.text ∧ c.notNull = false ∧ c.references? = some f.name.text) :
    db.Refers (db.tableAt vs t) (chosenIds (contextId? context) ((stored vs t).columns.map Column.inCatalog)) := by
  constructor
  · intro c hc must
    obtain ⟨f, _, _, free, _⟩ := contexts c hc
    rw [free] at must
    cases must
  · intro c hc target reference k given
    obtain ⟨f, hf, column, _, references⟩ := contexts c hc
    have chosen := chosenIds_idFor distinct (contextId? context) hc
    rw [chosen, contextId?_eq compiles carried.entities hf column] at given
    rw [references] at reference
    obtain rfl := Option.some.inj reference
    exact carried.there (f.name.text, k) (context.get?_eq_some.1 given)

theorem recordRelationship_outcome {p : Progress (Database V)} (ready : Ready vs m p) {e : Entity}
    (he : e ∈ m.entities) (leaf : m.hierarchy.isLeaf e.name.text = true) {context : Context}
    (carried : Carried m p.store context) {n : Int} (self : context.get? e.name.text = some n) (path : NodePath) :
    ∃ columns new db, Remembers vs m columns ∧
      Noted (Schema.relationshipsTable e.name.text)
        (idRow (contextIds context (Schema.relationships m m.hierarchy e.name))) p.store new db ∧
      outcome (recordRelationship (store vs enforce) path e.name.text context) p =
        (.ok (), ⟨db, columns, noteRelationship new p.report⟩) := by
  have mem := Model.Compiles.relationships_mem he leaf
  generalize table : Schema.relationships m m.hierarchy e.name = t at mem ⊢
  have name : Schema.relationshipsTable e.name.text = t.name := by rw [← table]; rfl
  have kind : t.kind = .relationships := by rw [← table]; rfl
  obtain ⟨columns, right, asked⟩ := columnsOf_outcome enforce compiles ready mem path
  have distinct : (p.store.tableAt vs t).Distinct := stored_distinct vs (compiles.columns_distinct mem)
  have contexts : ∀ c ∈ (stored vs t).columns, ∃ f ∈ m.entities,
      c.name = Schema.contextColumn f.name.text ∧ c.notNull = false ∧ c.references? = some f.name.text := by
    rw [← table]
    exact fun c hc => relationships_stored he hc
  have own : ∃ c ∈ (p.store.tableAt vs t).columns, c.name = Schema.contextColumn e.name.text := by
    have listed : Schema.context e.name.text ∈ t.columns := by
      rw [← table]
      exact List.mem_append_right _ (List.mem_singleton.2 rfl)
    exact ⟨_, (mem_stored_columns vs).2 ⟨_, listed, rfl⟩, rfl⟩
  obtain ⟨c, hc, column⟩ := own
  have value : contextId? context c.inCatalog = some n :=
    (contextId?_eq compiles carried.entities he column).trans self
  have covers := chosenIds_covers distinct (contextId? context) hc value
  have refers := refers_chosen compiles carried distinct contexts
  obtain ⟨new, db, noted, inserted⟩ := insertUnlessPresent_outcome enforce compiles
    (p := { p with columns }) ready.consistent mem (.inr kind) covers refers path
  have row : (stored vs t).idsRow (chosenIds (contextId? context) ((stored vs t).columns.map Column.inCatalog)) =
      idRow (contextIds context t) := by
    rw [idsRow_chosen distinct, catalog_contextIds]
  refine ⟨columns, new, db, right, ?_, ?_⟩
  · rw [name, ← row]
    exact noted
  · unfold recordRelationship
    dsimp only
    rw [name, outcome_bind_ok asked]
    refine (outcome_bind_ok inserted).trans ?_
    cases new <;> rfl

/-! ### Parent and child -/

theorem recordJunction_outcome {p : Progress (Database V)} (ready : Ready vs m p) {e : Entity} (he : e ∈ m.entities)
    {r : Relation} (hr : r ∈ e.relations)
    (relation : m.hierarchy.relation? e.name.text r.target.text = some r.name.text) {parent child : Int}
    (parentThere : p.store.HasId e.name.text parent) (childThere : p.store.HasId r.target.text child)
    (path : NodePath) : ∃ columns new db, Remembers vs m columns ∧
      Noted (Schema.junctionTable e.name.text r.name.text) (idRow [some parent, some child]) p.store new db ∧
      outcome (recordJunction (store vs enforce) m.hierarchy path (e.name.text, parent) (r.target.text, child)) p =
        (.ok (), ⟨db, columns, noteJunction new p.report⟩) := by
  have mem := Model.Compiles.junction_mem he hr
  generalize table : Schema.junction e.name r = t at mem
  have name : Schema.junctionTable e.name.text r.name.text = t.name := by rw [← table]; rfl
  have kind : t.kind = .junction := by rw [← table]; rfl
  let ids : List (String × Int) := [(Schema.contextColumn e.name.text, parent),
    (Schema.junctionTarget e.name.text r.target.text, child)]
  have columnNames : (p.store.tableAt vs t).columns.map (·.name) = ids.map (·.1) := by rw [← table]; rfl
  have distinct : (p.store.tableAt vs t).Distinct := stored_distinct vs (compiles.columns_distinct mem)
  have given : ∀ c ∈ (p.store.tableAt vs t).columns, ∃ v ∈ ids, v.1 = c.name ∧
      ∀ target, c.references? = some target → p.store.HasId target v.2 := by
    rw [← table]
    intro c hc
    rcases List.mem_pair.1 hc with rfl | rfl
    · refine ⟨_, List.mem_cons_self, rfl, fun target reference => ?_⟩
      exact Option.some.inj reference ▸ parentThere
    · refine ⟨_, List.mem_cons_of_mem _ List.mem_cons_self, rfl, fun target reference => ?_⟩
      exact Option.some.inj reference ▸ childThere
  have refers : p.store.Refers (p.store.tableAt vs t) ids := by
    refine ⟨fun c hc _ => StoredTable.idFor_column distinct columnNames hc, fun c hc target reference n value => ?_⟩
    obtain ⟨v, hv, name, there⟩ := given c hc
    rw [idFor_eq (StoredTable.ids_distinct distinct columnNames) hv (name ▸ sameName_self v.1)] at value
    exact Option.some.inj value ▸ there target reference
  have covers := StoredTable.covers_named distinct columnNames (List.cons_ne_nil _ _)
  have row : (stored vs t).idsRow ids = idRow [some parent, some child] := StoredTable.idsRow_named distinct columnNames
  obtain ⟨columns, right, asked⟩ := columnsOf_outcome enforce compiles ready mem path
  obtain ⟨new, db, noted, inserted⟩ := insertUnlessPresent_outcome enforce compiles
    (p := { p with columns }) ready.consistent mem (.inl kind) covers refers path
  have known : (ids.find? fun v => !(catalog vs t).any (Text.sameIgnoringCase ·.name v.1)) = none := by
    rw [List.find?_eq_none]
    intro v hv
    obtain ⟨c, hc, eq⟩ := StoredTable.column_of_id columnNames hv
    have there : (catalog vs t).any (Text.sameIgnoringCase ·.name v.1) = true := by
      rw [catalog, List.any_map, List.any_eq_true]
      exact ⟨c, hc, eq ▸ Text.sameIgnoringCase_self c.name⟩
    rw [there]
    decide
  refine ⟨columns, new, db, right, ?_, ?_⟩
  · rw [name, ← row]
    exact noted
  · unfold recordJunction
    simp only [relation, name]
    rw [outcome_bind_ok asked]
    split
    · next found => cases known.symm.trans found
    · refine (outcome_bind_ok inserted).trans ?_
      cases new <;> rfl

end Loader

end TreeStore
