import TreeStore.Proofs.Schema.Compiled
import TreeStore.Proofs.Schema.CreationOrder

/-! The tables of a model that compiles: which there are, that the columns of each differ in more than case,
and that each can be created once those before it are there. -/

namespace TreeStore

namespace Model

theorem mem_hierarchyEntries {m : Model} {entry : HierarchyEntry} : entry ∈ m.hierarchyEntries ↔
    ∃ e ∈ m.entities, ∃ r ∈ e.relations, entry = ⟨e.name.text, r.target.text, r.name.text⟩ := by
  simp only [hierarchyEntries, List.mem_flatMap, List.mem_map, eq_comm]

theorem mem_junctions {m : Model} {t : Table} : t ∈ m.junctions ↔
    ∃ e ∈ m.entities, ∃ r ∈ e.relations, t = Schema.junction e.name r := by
  simp only [junctions, List.mem_flatMap, List.mem_map, eq_comm]

theorem mem_relationshipTables {m : Model} {t : Table} : t ∈ m.relationshipTables ↔
    ∃ e ∈ m.entities, m.hierarchy.isLeaf e.name.text = true ∧
      t = Schema.relationships m m.hierarchy e.name := by
  simp only [relationshipTables, List.mem_map, List.mem_filter, and_assoc, eq_comm]

theorem relationshipsTable_injective : Function.Injective Schema.relationshipsTable := fun a b same => by
  simpa [Schema.relationshipsTable, ← String.toList_inj, String.toList_append] using same

theorem schema_tables (m : Model) : m.schema.tables = m.tables := by
  have creates : (m.tables.map Statement.create).filterMap (·.table?) = m.tables := by
    simp [List.filterMap_map, Statement.table?]
  have registers : (m.hierarchyEntries.map Statement.register).filterMap (·.table?) = [] := by
    simp [Statement.table?]
  rw [Schema.tables, schema, List.filterMap_append, creates, registers, List.append_nil]

theorem schema_entries (m : Model) : m.schema.entries = m.hierarchyEntries := by
  have creates : (m.tables.map Statement.create).filterMap (·.registration?) = [] := by
    simp [Statement.registration?]
  have registers : (m.hierarchyEntries.map Statement.register).filterMap (·.registration?) = m.hierarchyEntries := by
    simp [List.filterMap_map, Statement.registration?]
  rw [Schema.entries, schema, List.filterMap_append, creates, registers, List.nil_append]

theorem schema_hierarchy (m : Model) : m.schema.hierarchy = m.hierarchy :=
  congrArg Hierarchy.ofEntries m.schema_entries

end Model

theorem Schema.mem_entityTables {created : List Name} {es : List Entity} {t : Table}
    (mem : t ∈ entityTables created es) : ∃ e ∈ es, ∃ created', t = entityTable created' e := by
  induction es generalizing created with
  | nil => cases mem
  | cons e rest ih =>
    rcases List.mem_cons.1 mem with rfl | mem
    · exact ⟨e, List.mem_cons_self, created, rfl⟩
    · obtain ⟨f, hf, found⟩ := ih mem
      exact ⟨f, List.mem_cons_of_mem _ hf, found⟩

theorem Schema.entityTables_names (created : List Name) (es : List Entity) :
    (entityTables created es).map (·.name) = es.map (·.name.text) := by
  induction es generalizing created with
  | nil => rfl
  | cons e rest ih => simp [entityTables, entityTable, ih]

theorem Schema.entityTable_mem (created : List Name) {es : List Entity} {e : Entity} (mem : e ∈ es) :
    ∃ created', entityTable created' e ∈ entityTables created es := by
  induction es generalizing created with
  | nil => cases mem
  | cons f rest ih =>
    rcases List.mem_cons.1 mem with rfl | mem
    · exact ⟨created, List.mem_cons_self⟩
    · obtain ⟨created', found⟩ := ih (f.name :: created) mem
      exact ⟨created', List.mem_cons_of_mem _ found⟩

/-! ### Tables by kind -/

def Schema.tablesOf (s : Schema) (kind : TableKind) : List Table := s.tables.filter (·.kind = kind)

theorem Table.filter_kind {ts : List Table} {own : TableKind} (all : ∀ t ∈ ts, t.kind = own) (kind : TableKind) :
    ts.filter (·.kind = kind) = if own = kind then ts else [] := by
  split
  · next same => exact List.filter_eq_self.2 fun t mem => decide_eq_true ((all t mem).trans same)
  · next other => exact List.filter_eq_nil_iff.2 fun t mem same => other ((all t mem).symm.trans (of_decide_eq_true same))

theorem Model.tablesOf (m : Model) (kind : TableKind) : m.schema.tablesOf kind = match kind with
    | .registry => [Schema.registry]
    | .entity => Schema.entityTables [] m.creationOrder
    | .junction => m.junctions
    | .relationships => m.relationshipTables := by
  have registry : ∀ t ∈ [Schema.registry], t.kind = .registry := by simp [Schema.registry]
  have entities : ∀ t ∈ Schema.entityTables [] m.creationOrder, t.kind = .entity := fun t mem => by
    obtain ⟨_, _, _, rfl⟩ := Schema.mem_entityTables mem
    rfl
  have junctions : ∀ t ∈ m.junctions, t.kind = .junction := fun t mem => by
    obtain ⟨_, _, _, _, rfl⟩ := mem_junctions.1 mem
    rfl
  have relationships : ∀ t ∈ m.relationshipTables, t.kind = .relationships := fun t mem => by
    obtain ⟨_, _, _, rfl⟩ := mem_relationshipTables.1 mem
    rfl
  have all : m.tables = [Schema.registry] ++ Schema.entityTables [] m.creationOrder ++ m.junctions ++
    m.relationshipTables := rfl
  rw [Schema.tablesOf, schema_tables, all]
  simp only [List.filter_append, Table.filter_kind registry, Table.filter_kind entities, Table.filter_kind junctions,
    Table.filter_kind relationships]
  cases kind <;> simp

namespace Model.WellNamed

variable {m : Model} (named : m.WellNamed)
include named

theorem mem_creationOrder {e : Entity} : e ∈ m.creationOrder ↔ e ∈ m.entities :=
  (creationOrder_perm named.entity_names).mem_iff

/-- The leaves of the hierarchy are the entities without relations. -/
theorem isLeaf_iff {e : Entity} (mem : e ∈ m.entities) :
    m.hierarchy.isLeaf e.name.text = true ↔ e.relations = [] := by
  rw [Model.hierarchy, Hierarchy.isLeaf_ofEntries]
  constructor
  · intro leaf
    rw [List.eq_nil_iff_forall_not_mem]
    exact fun r hr => leaf _ (mem_hierarchyEntries.2 ⟨e, mem, r, hr, rfl⟩) rfl
  · intro none entry hentry same
    obtain ⟨f, hf, r, hr, rfl⟩ := mem_hierarchyEntries.1 hentry
    obtain rfl := named.entity_of_text hf mem same
    rw [none] at hr
    cases hr

/-- The tables of a model, by kind. -/
theorem mem_tables {t : Table} (mem : t ∈ m.tables) : t = Schema.registry ∨
    (∃ e ∈ m.entities, ∃ created, t = Schema.entityTable created e) ∨
    (∃ e ∈ m.entities, ∃ r ∈ e.relations, t = Schema.junction e.name r) ∨
    (∃ e ∈ m.entities, m.hierarchy.isLeaf e.name.text = true ∧
      t = Schema.relationships m m.hierarchy e.name) := by
  simp only [Model.tables, List.cons_append, List.mem_cons, List.mem_append] at mem
  rcases mem with rfl | (mem | mem) | mem
  · exact .inl rfl
  · obtain ⟨e, he, found⟩ := Schema.mem_entityTables mem
    exact .inr (.inl ⟨e, named.mem_creationOrder.1 he, found⟩)
  · exact .inr (.inr (.inl (mem_junctions.1 mem)))
  · exact .inr (.inr (.inr (mem_relationshipTables.1 mem)))

end Model.WellNamed

namespace Model.Compiles

variable {m : Model} (compiles : m.Compiles)
include compiles

omit compiles in
theorem registry_mem (m : Model) : Schema.registry ∈ m.tables := by simp [Model.tables]

theorem entityTable_mem {e : Entity} (mem : e ∈ m.entities) :
    ∃ created, Schema.entityTable created e ∈ m.tables := by
  obtain ⟨created, found⟩ := Schema.entityTable_mem [] (compiles.wellNamed.mem_creationOrder.2 mem)
  exact ⟨created, by simp [Model.tables, found]⟩

omit compiles in
theorem junction_mem {e : Entity} (mem : e ∈ m.entities) {r : Relation} (hr : r ∈ e.relations) :
    Schema.junction e.name r ∈ m.tables := by
  have found := mem_junctions.2 ⟨e, mem, r, hr, rfl⟩
  simp [Model.tables, found]

omit compiles in
theorem relationships_mem {e : Entity} (mem : e ∈ m.entities) (leaf : m.hierarchy.isLeaf e.name.text = true) :
    Schema.relationships m m.hierarchy e.name ∈ m.tables := by
  have found := mem_relationshipTables.2 ⟨e, mem, leaf, rfl⟩
  simp [Model.tables, found]

theorem sequence_name {t : Table} (mem : t ∈ m.tables) {q : String} (sequence : t.sequence? = some q) :
    q = Schema.sequenceOf t.name := by
  rcases compiles.wellNamed.mem_tables mem with rfl | ⟨e, _, created, rfl⟩ | ⟨e, _, r, _, rfl⟩ | ⟨e, _, _, rfl⟩
  · cases sequence
  · exact (Option.some.inj sequence).symm
  · cases sequence
  · cases sequence

theorem sequence_unique {t u : Table} (ht : t ∈ m.tables) (hu : u ∈ m.tables) {q q' : String}
    (first : t.sequence? = some q) (second : u.sequence? = some q') (same : sameName q' q = true) : t = u := by
  obtain rfl := compiles.sequence_name ht first
  obtain rfl := compiles.sequence_name hu second
  refine (compiles.table_unique hu ht (sameName_iff.2 ?_)).symm
  have mark : Text.IsAscii "seq_" := Text.isAscii_iff.2 rfl
  have ascii : ∀ w ∈ m.tables, Text.lower (Schema.sequenceOf w.name) = "seq_" ++ Text.lower w.name := by
    intro w hw
    have name := Ident.isValid_ascii (compiles.table_checked hw).1
    rw [Text.lower_ascii name, Schema.sequenceOf, Text.lower_ascii ((Text.isAscii_append _ _).2 ⟨mark, name⟩),
      Text.asciiLower_append]
    congr 1
  have joined := sameName_iff.1 same
  rw [ascii u hu, ascii t ht] at joined
  simpa [← String.toList_inj, String.toList_append] using joined

/-! ### Columns -/

theorem entityTable_distinct (created : List Name) {e : Entity} (mem : e ∈ m.entities) :
    ((Schema.entityTable created e).columns.map (Text.lower ·.name)).Nodup := by
  have lowerId : Text.lower Schema.idColumn = Schema.idColumn := by decide
  have columns : (e.relations.map fun r => Text.lower r.column) =
      (e.relations.map (·.name.key)).map (· ++ "_id") := by
    rw [List.map_map]
    exact List.map_congr_left fun r _ => r.lower_column
  have suffix : Function.Injective fun s : String => s ++ "_id" := fun a b same => by
    simpa [← String.toList_inj, String.toList_append] using same
  have relations := (compiles.relation_keys mem).map suffix
  rw [← columns] at relations
  simp only [Schema.entityTable, List.cons_append, List.map_cons, List.map_append, List.map_map,
    Function.comp_def, lowerId, List.nodup_cons, List.nodup_append, List.mem_append, List.mem_map]
  refine ⟨?_, compiles.attribute_keys mem, relations, ?_⟩
  · rintro (⟨a, ha, same⟩ | ⟨r, hr, same⟩)
    · exact (compiles.attribute_checked mem ha).2.1 same
    · exact r.column_ne_id same
  · rintro _ ⟨a, ha, rfl⟩ _ ⟨r, hr, rfl⟩ same
    exact (compiles.attribute_checked mem ha).2.2 r hr same.symm

theorem entity_column_unique {e f : Entity} (he : e ∈ m.entities) (hf : f ∈ m.entities)
    (same : Text.lower (Schema.contextColumn e.name.text) = Text.lower (Schema.contextColumn f.name.text)) :
    e = f := by
  rw [Schema.lower_contextColumn, Schema.lower_contextColumn] at same
  have keys : e.name.key = f.name.key := by simpa [Name.key, ← String.toList_inj, String.toList_append] using same
  exact compiles.wellNamed.entity_unique he hf keys

theorem junction_distinct {e : Entity} (mem : e ∈ m.entities) {r : Relation} (hr : r ∈ e.relations) :
    ((Schema.junction e.name r).columns.map (Text.lower ·.name)).Nodup := by
  obtain ⟨f, hf, target⟩ := compiles.target_mem mem hr
  simp only [Schema.junction, ← target, List.map_cons, List.map_nil, List.nodup_cons, List.mem_singleton,
    List.not_mem_nil, not_false_eq_true, List.nodup_nil, and_true, Schema.junctionTarget]
  split
  · next self =>
    have child : Text.IsAscii "child_" := Text.isAscii_iff.2 rfl
    have ascii := Schema.contextColumn_ascii.2 (compiles.entity_ascii hf)
    rw [self, Text.lower_ascii ascii, Text.lower_ascii ((Text.isAscii_append _ _).2 ⟨child, ascii⟩),
      Text.asciiLower_append]
    intro same
    have lengths := congrArg String.length same
    rw [String.length_append] at lengths
    have six : (Text.asciiLower "child_").length = 6 := by decide
    omega
  · next other => exact fun same => other (congrArg (·.name.text) (compiles.entity_column_unique mem hf same))

theorem relationships_distinct {e : Entity} (mem : e ∈ m.entities) :
    ((Schema.relationships m m.hierarchy e.name).columns.map (Text.lower ·.name)).Nodup := by
  have leafNotAbove : e.name.text ∉ m.hierarchy.ancestorsOf e.name.text := fun above =>
    (Hierarchy.mem_ancestorsOf.1 above).1 rfl
  have names : (m.entities.map fun f => Text.lower (Schema.contextColumn f.name.text)).Nodup :=
    List.Nodup.map_on (fun f hf g hg same => compiles.entity_column_unique hf hg same)
      compiles.wellNamed.entity_names.of_map
  have above : ((((m.entities.map (·.name.text)).filter
      (m.hierarchy.ancestorsOf e.name.text).contains)).map
        fun x => Text.lower (Schema.contextColumn x)).Nodup := by
    refine names.sublist ?_
    have sub := (List.filter_sublist (p := (m.hierarchy.ancestorsOf e.name.text).contains)
      (l := m.entities.map (·.name.text))).map fun x => Text.lower (Schema.contextColumn x)
    simpa only [List.map_map, Function.comp_def] using sub
  simp only [Schema.relationships, List.map_append, List.map_map, Function.comp_def, Schema.context,
    List.map_cons, List.map_nil]
  rw [List.nodup_append]
  refine ⟨above, by simp, ?_⟩
  intro x hx y hy
  obtain rfl := List.mem_singleton.1 hy
  obtain ⟨name, hname, rfl⟩ := List.mem_map.1 hx
  obtain ⟨listed, isAbove⟩ := List.mem_filter.1 hname
  obtain ⟨f, hf, rfl⟩ := List.mem_map.1 listed
  intro same
  obtain rfl := compiles.entity_column_unique hf mem same
  exact leafNotAbove (by simpa using isAbove)

/-- The columns of a table differ in more than case. -/
theorem columns_distinct {t : Table} (mem : t ∈ m.tables) :
    (t.columns.map (Text.lower ·.name)).Nodup := by
  rcases compiles.wellNamed.mem_tables mem with rfl | ⟨e, he, created, rfl⟩ | ⟨e, he, r, hr, rfl⟩ | ⟨e, he, _, rfl⟩
  · decide
  · exact compiles.entityTable_distinct created he
  · exact compiles.junction_distinct he hr
  · exact compiles.relationships_distinct he

end Model.Compiles

end TreeStore
