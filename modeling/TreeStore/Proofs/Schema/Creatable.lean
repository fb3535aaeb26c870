import TreeStore.Proofs.Schema.Tables

/-! What a database asks of a definition when it creates a table, and that the tables of a model that
compiles meet it one after another: whatever a table references has been created before it. -/

namespace TreeStore

/-- The key of a table is its id alone, so that its ids can be referenced. -/
def Table.HasIdKey (t : Table) : Prop :=
  t.primaryKey = [] ∧ (t.columns.filter (·.primaryKey)).map (·.name) = [Schema.idColumn]

/-- A table can be created once some tables are there, as far as its columns, keys, defaults and references
go. -/
structure Table.Creatable (done : List Table) (t : Table) : Prop where
  columns : t.columns ≠ []
  types : ∀ c ∈ t.columns, ∃ kind : ScalarKind, c.type = kind.columnType
  oneKey : (t.columns.filter (·.primaryKey)).length + (if t.primaryKey.isEmpty then 0 else 1) ≤ 1
  keyColumns : ∀ k ∈ t.primaryKey, ∃ c ∈ t.columns, c.name = k
  defaults : ∀ c ∈ t.columns, ∀ d, c.default? = some d → ∃ q, d = .next q ∧ t.sequence? = some q
  references : ∀ c ∈ t.columns, ∀ target, c.references? = some target →
    ∃ u ∈ done, u.name = target ∧ u.HasIdKey

def Table.CreatableAfter : List Table → List Table → Prop
  | _, [] => True
  | done, t :: rest => t.Creatable done ∧ CreatableAfter (done ++ [t]) rest

namespace Table

theorem Creatable.mono {done done' : List Table} {t : Table} (creatable : t.Creatable done)
    (sub : ∀ u ∈ done, u ∈ done') : t.Creatable done' :=
  { creatable with
    references := fun c hc target isTarget => by
      obtain ⟨u, hu, found⟩ := creatable.references c hc target isTarget
      exact ⟨u, sub u hu, found⟩ }

theorem creatableAfter_append {done ts us : List Table} (first : CreatableAfter done ts)
    (second : CreatableAfter (done ++ ts) us) : CreatableAfter done (ts ++ us) := by
  induction ts generalizing done with
  | nil => simpa using second
  | cons t rest ih => exact ⟨first.1, ih first.2 (by simpa using second)⟩

theorem creatableAfter_of_forall {done ts : List Table} (each : ∀ t ∈ ts, t.Creatable done) :
    CreatableAfter done ts := by
  induction ts generalizing done with
  | nil => trivial
  | cons t rest ih =>
    refine ⟨each t List.mem_cons_self, ih fun u hu => ?_⟩
    exact (each u (List.mem_cons_of_mem _ hu)).mono fun _ => List.mem_append_left _

theorem creatableAfter_split {done before after : List Table} {t : Table}
    (all : CreatableAfter done (before ++ t :: after)) : t.Creatable (done ++ before) := by
  induction before generalizing done with
  | nil => simpa using all.1
  | cons u rest ih => simpa using ih all.2

theorem creatableAfter_mem {done ts : List Table} (all : CreatableAfter done ts) {t : Table} (mem : t ∈ ts) :
    ∃ before, t.Creatable before := by
  obtain ⟨before, after, rfl⟩ := List.append_of_mem mem
  exact ⟨_, creatableAfter_split all⟩

end Table

namespace Schema

open Table

theorem bigint_kind : ∃ kind : ScalarKind, "BIGINT" = kind.columnType := ⟨.integer, rfl⟩

theorem registry_creatable : registry.Creatable [] where
  columns := by decide
  types := by
    simp only [registry, List.mem_map]
    rintro _ ⟨c, _, rfl⟩
    exact ⟨.text, rfl⟩
  oneKey := by decide
  keyColumns := by decide
  defaults := by
    simp only [registry, List.mem_map]
    rintro _ ⟨c, _, rfl⟩ d default
    cases default
  references := by
    simp only [registry, List.mem_map]
    rintro _ ⟨c, _, rfl⟩ target reference
    cases reference

theorem entityTable_hasIdKey (created : List Name) (e : Entity) : (entityTable created e).HasIdKey := by
  have attributes : (e.attributes.filter fun _ => false) = [] := List.filter_false _
  have relations : (e.relations.filter fun _ => false) = [] := List.filter_false _
  simp [HasIdKey, entityTable, List.filter_map, Function.comp_def, attributes, relations]

theorem entityTable_creatable {created : List Name} {done : List Table} (e : Entity)
    (there : ∀ n ∈ created, ∃ u ∈ done, u.name = n.text ∧ u.HasIdKey) :
    (entityTable created e).Creatable done where
  columns := by simp [entityTable]
  types := by
    simp only [entityTable, List.cons_append, List.mem_cons, List.mem_append, List.mem_map]
    rintro _ (rfl | ⟨a, _, rfl⟩ | ⟨r, _, rfl⟩)
    · exact bigint_kind
    · exact ⟨a.kind, rfl⟩
    · exact bigint_kind
  oneKey := by
    obtain ⟨noKey, idKey⟩ := entityTable_hasIdKey created e
    have one := congrArg List.length idKey
    rw [List.length_map] at one
    simp [one, noKey]
  keyColumns := by simp [entityTable]
  defaults := by
    simp only [entityTable, List.cons_append, List.mem_cons, List.mem_append, List.mem_map]
    rintro _ (rfl | ⟨a, _, rfl⟩ | ⟨r, _, rfl⟩) d default
    · exact ⟨_, (Option.some.inj default).symm, rfl⟩
    · cases default
    · cases default
  references := by
    simp only [entityTable, List.cons_append, List.mem_cons, List.mem_append, List.mem_map]
    rintro _ (rfl | ⟨a, _, rfl⟩ | ⟨r, _, rfl⟩) target reference
    · cases reference
    · cases reference
    · dsimp only at reference
      split at reference
      · next old =>
        obtain rfl := Option.some.inj reference
        exact there r.target old.2
      · cases reference

theorem entityTables_creatable {created : List Name} {done : List Table} (es : List Entity)
    (there : ∀ n ∈ created, ∃ u ∈ done, u.name = n.text ∧ u.HasIdKey) :
    CreatableAfter done (entityTables created es) := by
  induction es generalizing created done with
  | nil => trivial
  | cons e rest ih =>
    refine ⟨entityTable_creatable e there, ih fun n hn => ?_⟩
    rcases List.mem_cons.1 hn with rfl | hn
    · exact ⟨entityTable created e, by simp, rfl, entityTable_hasIdKey created e⟩
    · obtain ⟨u, hu, found⟩ := there n hn
      exact ⟨u, List.mem_append_left _ hu, found⟩

theorem idTable_creatable {done : List Table} {t : Table} (columns : t.columns ≠ [])
    (noKey : t.primaryKey = [])
    (ids : ∀ c ∈ t.columns, c.type = "BIGINT" ∧ c.primaryKey = false ∧ c.default? = none ∧
      ∃ u ∈ done, c.references? = some u.name ∧ u.HasIdKey) : t.Creatable done where
  columns := columns
  types := fun c hc => (ids c hc).1 ▸ bigint_kind
  oneKey := by
    have none : t.columns.filter (·.primaryKey) = [] := by
      rw [List.filter_eq_nil_iff]
      intro c hc
      simp [(ids c hc).2.1]
    simp [none, noKey]
  keyColumns := by simp [noKey]
  defaults := fun c hc d default => by
    rw [(ids c hc).2.2.1] at default
    cases default
  references := fun c hc target reference => by
    obtain ⟨u, hu, eq, key⟩ := (ids c hc).2.2.2
    rw [eq] at reference
    exact ⟨u, hu, Option.some.inj reference, key⟩

end Schema

def Model.tablesIn (m : Model) (order : List Entity) : List Table :=
  Schema.registry :: Schema.entityTables [] order ++ m.junctions ++ m.relationshipTables

namespace Model.Compiles

open Table

variable {m : Model} (compiles : m.Compiles) {order : List Entity} (perm : order.Perm m.entities)

section Ordered

include perm

theorem entityTable_there {e : Entity} (mem : e ∈ m.entities) :
    ∃ u ∈ Schema.registry :: Schema.entityTables [] order, u.name = e.name.text ∧ u.HasIdKey := by
  obtain ⟨created, found⟩ := Schema.entityTable_mem [] (perm.mem_iff.2 mem)
  exact ⟨_, List.mem_cons_of_mem _ found, rfl, Schema.entityTable_hasIdKey created e⟩

include compiles in
theorem junctions_creatable : ∀ t ∈ m.junctions,
    t.Creatable (Schema.registry :: Schema.entityTables [] order) := by
  intro t mem
  obtain ⟨e, he, r, hr, rfl⟩ := mem_junctions.1 mem
  obtain ⟨f, hf, target⟩ := compiles.target_mem he hr
  obtain ⟨u, hu, source, sourceKey⟩ := entityTable_there perm he
  obtain ⟨v, hv, aim, aimKey⟩ := entityTable_there perm hf
  refine Schema.idTable_creatable (by simp [Schema.junction]) rfl ?_
  intro c hc
  rcases List.mem_pair.1 hc with rfl | rfl
  · exact ⟨rfl, rfl, rfl, u, hu, by rw [source], sourceKey⟩
  · exact ⟨rfl, rfl, rfl, v, hv, by rw [aim, target], aimKey⟩

omit perm in
theorem relationships_column {leaf : Name} {c : Column}
    (mem : c ∈ (Schema.relationships m m.hierarchy leaf).columns) (known : ∃ e ∈ m.entities, e.name = leaf) :
    ∃ f ∈ m.entities, c = Schema.context f.name.text := by
  simp only [Schema.relationships, List.mem_append, List.mem_map, List.mem_filter, List.mem_singleton] at mem
  rcases mem with ⟨_, ⟨⟨f, hf, rfl⟩, _⟩, rfl⟩ | rfl
  · exact ⟨f, hf, rfl⟩
  · obtain ⟨e, he, rfl⟩ := known
    exact ⟨e, he, rfl⟩

theorem relationships_creatable : ∀ t ∈ m.relationshipTables,
    t.Creatable (Schema.registry :: Schema.entityTables [] order) := by
  intro t mem
  obtain ⟨e, he, _, rfl⟩ := mem_relationshipTables.1 mem
  refine Schema.idTable_creatable (by simp [Schema.relationships]) rfl fun c hc => ?_
  obtain ⟨f, hf, rfl⟩ := relationships_column hc ⟨e, he, rfl⟩
  obtain ⟨u, hu, name, key⟩ := entityTable_there perm hf
  exact ⟨rfl, rfl, rfl, u, hu, by rw [Schema.context, name], key⟩

include compiles in
/-- The tables of a model can be created one after another, whatever the order of entities. -/
theorem tablesIn_creatable : CreatableAfter [] (m.tablesIn order) := by
  have entities : CreatableAfter [Schema.registry] (Schema.entityTables [] order) :=
    Schema.entityTables_creatable _ (by simp)
  have junctions := creatableAfter_of_forall (compiles.junctions_creatable perm)
  have relationships := creatableAfter_of_forall fun t mem =>
    (relationships_creatable perm t mem).mono fun u hu => List.mem_append_left m.junctions hu
  have after : CreatableAfter [] (Schema.registry :: Schema.entityTables [] order) :=
    ⟨Schema.registry_creatable, entities⟩
  exact creatableAfter_append (creatableAfter_append after junctions) relationships

end Ordered

include compiles

theorem tables_creatable : CreatableAfter [] m.tables :=
  compiles.tablesIn_creatable (Model.creationOrder_perm compiles.wellNamed.entity_names)

theorem table_columns {t : Table} (mem : t ∈ m.tables) : t.columns ≠ [] := by
  obtain ⟨_, creatable⟩ := creatableAfter_mem compiles.tables_creatable mem
  exact creatable.columns

theorem table_types {t : Table} (mem : t ∈ m.tables) {c : Column} (hc : c ∈ t.columns) :
    ∃ kind : ScalarKind, c.type = kind.columnType := by
  obtain ⟨_, creatable⟩ := creatableAfter_mem compiles.tables_creatable mem
  exact creatable.types c hc

end Model.Compiles

end TreeStore
