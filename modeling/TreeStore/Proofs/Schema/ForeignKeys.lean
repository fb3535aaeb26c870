import TreeStore.Proofs.Schema.Creatable
import TreeStore.Proofs.Schema.TargetsFirst

/-! The references between the tables of a schema. They all lead back to tables of entities that are created before, and
the column of a relation references its target wherever the order of creation lets it. All of this is so for any order that
a topological sort gives. -/

namespace TreeStore

/-- One of the tables is that of an entity, and has the column of a relation, which references a table or none. -/
def Table.RelationColumn (tables : List Table) (e : Entity) (r : Relation) (target? : Option String) : Prop :=
  ∃ t ∈ tables, t.name = e.name.text ∧
    t.column? r.column = some { name := r.column, type := "BIGINT", references? := target? }

namespace Schema

def HasRelationColumn (s : Schema) (e : Entity) (r : Relation) (target? : Option String) : Prop :=
  Table.RelationColumn (s.tablesOf .entity) e r target?

/-- What a table references is there before it: tables of entities, which are spelled the same and have their ids for
keys. -/
def RefersBack (s : Schema) : Prop :=
  ∀ before t after, s.statements = before ++ .create t :: after →
    ∀ c ∈ t.columns, ∀ target, c.references? = some target →
      ∃ u, .create u ∈ before ∧ u.kind = .entity ∧ u.name = target ∧ u.HasIdKey

theorem entityTables_append (created : List Name) (es fs : List Entity) : entityTables created (es ++ fs) =
    entityTables created es ++ entityTables ((es.map (·.name)).reverse ++ created) fs := by
  induction es generalizing created with
  | nil => rfl
  | cons e rest ih => simp [entityTables, ih]

end Schema

theorem Table.column?_eq {t : Table} (distinct : t.columnNames.Nodup) {c : Column} (mem : c ∈ t.columns) :
    t.column? c.name = some c := by
  cases found : t.column? c.name with
  | none => simpa using List.find?_eq_none.1 found c mem
  | some d =>
    have name : d.name = c.name := by simpa using List.find?_some found
    rw [List.inj_on_of_nodup_map distinct (List.mem_of_find?_eq_some found) mem name]

theorem Schema.entityTable_columnNames (created other : List Name) (e : Entity) :
    (entityTable created e).columnNames = (entityTable other e).columnNames := by
  simp [entityTable, Table.columnNames]

namespace Model

/-- Entities are in an order of creation that gives all references there can be. -/
structure RefersIn (m : Model) (order : List Entity) : Prop where
  perm : order.Perm m.entities
  back : ∀ before t after, m.tablesIn order = before ++ t :: after →
    ∀ c ∈ t.columns, ∀ target, c.references? = some target →
      ∃ u ∈ before, u.kind = .entity ∧ u.name = target ∧ u.HasIdKey
  acyclic : m.Acyclic → ∀ e ∈ m.entities, ∀ r ∈ e.relations, r.target ≠ e.name →
    Table.RelationColumn (Schema.entityTables [] order) e r (some r.target.text)
  circle : ¬ m.Acyclic → order = m.entities ∧
    ∀ before e after, m.entities = before ++ e :: after → ∀ r ∈ e.relations,
      Table.RelationColumn (Schema.entityTables [] order) e r
        (if r.target ∈ before.map (·.name) then some r.target.text else none)
  self : ∀ e ∈ m.entities, ∀ r ∈ e.relations, r.target = e.name →
    Table.RelationColumn (Schema.entityTables [] order) e r none

namespace Compiles

variable {m : Model} (compiles : m.Compiles)
include compiles

theorem columnNames_nodup {t : Table} (mem : t ∈ m.tables) : t.columnNames.Nodup :=
  names_of_keys Text.lower (compiles.columns_distinct mem)

omit compiles in
/-- Only the tables of entities have their ids for keys. -/
theorem kind_of_hasIdKey {order : List Entity} {t : Table} (mem : t ∈ m.tablesIn order) (key : t.HasIdKey) :
    t.kind = .entity := by
  simp only [tablesIn, List.cons_append, List.mem_cons, List.mem_append] at mem
  rcases mem with rfl | (entity | junction) | relationships
  · exact absurd key.1 (by decide)
  · obtain ⟨_, _, _, rfl⟩ := Schema.mem_entityTables entity
    rfl
  · obtain ⟨_, _, _, _, rfl⟩ := mem_junctions.1 junction
    simp [Table.HasIdKey, Schema.junction] at key
  · obtain ⟨_, _, _, rfl⟩ := mem_relationshipTables.1 relationships
    simp [Table.HasIdKey, Schema.relationships, Schema.context, List.filter_map] at key

section Ordered

variable {order : List Entity} (perm : order.Perm m.entities)
include perm

theorem refersBackIn {before after : List Table} {t : Table} (split : m.tablesIn order = before ++ t :: after)
    {c : Column} (hc : c ∈ t.columns) {target : String} (reference : c.references? = some target) :
    ∃ u ∈ before, u.kind = .entity ∧ u.name = target ∧ u.HasIdKey := by
  have creatable := Table.creatableAfter_split (split ▸ compiles.tablesIn_creatable perm)
  obtain ⟨u, hu, name, key⟩ := creatable.references c hc target reference
  rw [List.nil_append] at hu
  exact ⟨u, hu, kind_of_hasIdKey (split ▸ List.mem_append_left _ hu) key, name, key⟩

variable {before after : List Entity} {e : Entity} (split : order = before ++ e :: after)
include split

/-- The column of a relation references the target just if that is another entity, created before. -/
theorem relation_column {r : Relation} (hr : r ∈ e.relations) :
    Table.RelationColumn (Schema.entityTables [] order) e r
      (if r.target ≠ e.name ∧ r.target ∈ before.map (·.name) then some r.target.text else none) := by
  have there : Schema.entityTable (before.map (·.name)).reverse e ∈ Schema.entityTables [] order := by
    rw [split, Schema.entityTables_append]
    simp [Schema.entityTables]
  obtain ⟨created, listed⟩ := compiles.entityTable_mem (perm.mem_iff.1 (by simp [split] : e ∈ order))
  have distinct := compiles.columnNames_nodup listed
  rw [Schema.entityTable_columnNames created (before.map (·.name)).reverse] at distinct
  refine ⟨_, there, rfl, ?_⟩
  have column := Table.column?_eq distinct (List.mem_append_right _ (List.mem_map_of_mem hr))
  rw [column]
  simp only [List.mem_reverse]

theorem target_created (first : isTargetsFirst order = true) {r : Relation} (hr : r ∈ e.relations)
    (other : r.target ≠ e.name) : r.target ∈ before.map (·.name) := by
  obtain ⟨f, hf, target⟩ := compiles.target_mem (perm.mem_iff.1 (by simp [split] : e ∈ order)) hr
  have placed : f ∈ before ++ e :: after := split ▸ perm.mem_iff.2 hf
  have first := isTargetsFirst_iff.1 first
  rw [split] at first
  rcases List.mem_append.1 placed with before' | later
  · exact List.mem_map.2 ⟨f, before', target⟩
  · rcases List.mem_cons.1 later with rfl | later
    · exact absurd target.symm other
    · have refers : refersTo e f = true :=
        refersTo_iff.2 ⟨fun same => other (target.symm.trans same.symm), r, hr, target.symm⟩
      have apart := (List.pairwise_cons.1 (List.pairwise_append.1 first).2.1).1 f later
      exact absurd refers (Bool.eq_false_iff.1 apart)

end Ordered

/-- Whatever topological sort there is, the order that it gives has all references there can be. -/
theorem refersIn_of_sorts {sorted? : Option (List Entity)} (sorts : m.Sorts sorted?) :
    m.RefersIn (sorted?.getD m.entities) where
  perm := sorts.perm
  back _ _ _ split _ hc _ reference := compiles.refersBackIn sorts.perm split hc reference
  acyclic acyclic e he r hr other := by
    obtain ⟨before, after, split⟩ := List.append_of_mem (sorts.perm.mem_iff.2 he)
    have column := compiles.relation_column sorts.perm split hr
    rwa [if_pos ⟨other, compiles.target_created sorts.perm split (sorts.targetsFirst acyclic) hr other⟩] at column
  circle circle := by
    rw [sorts.circle circle, Option.getD_none]
    refine ⟨rfl, fun before e after split r hr => ?_⟩
    have column := compiles.relation_column (.refl m.entities) split hr
    have apart : r.target ∈ before.map (·.name) → r.target ≠ e.name := fun earlier same => by
      have names := compiles.wellNamed.entity_names
      rw [split, List.map_append, List.nodup_append] at names
      exact names.2.2 _ earlier e.name (by simp) same
    simpa only [and_iff_right_of_imp apart] using column
  self e he r hr self := by
    obtain ⟨before, after, split⟩ := List.append_of_mem (sorts.perm.mem_iff.2 he)
    have column := compiles.relation_column sorts.perm split hr
    rwa [if_neg fun both => both.1 self] at column

theorem refersIn_creationOrder : m.RefersIn m.creationOrder := by
  rw [m.creationOrder_eq]
  exact compiles.refersIn_of_sorts (walkOrder_sorts compiles.wellNamed.entity_names)

theorem refersBack : m.schema.RefersBack := by
  intro before t after split c hc target reference
  have tables : m.tables = before.filterMap (·.table?) ++ t :: after.filterMap (·.table?) := by
    rw [← m.schema_tables, Schema.tables, split, List.filterMap_append]
    rfl
  obtain ⟨u, hu, kind, name, key⟩ := compiles.refersIn_creationOrder.back _ _ _ tables c hc target reference
  have created : .create u ∈ before := by
    obtain ⟨stmt, hstmt, found⟩ := List.mem_filterMap.1 hu
    cases stmt with
    | create w => exact Option.some.inj found ▸ hstmt
    | register e => cases found
  exact ⟨u, created, kind, name, key⟩

end Compiles

end Model

/-- Every entity has one table, and whatever is referenced is the table of an entity that is created before. The column
of a relation to another entity references its target, if the relations lead in no circle; if they do, entities keep the
order of their declaration, and those columns reference their targets that are declared before. The column of a relation
from an entity to itself references nothing. -/
theorem foreign_keys_exact {m : Model} {s : Schema} (compiled : Schema.ofModel m = .ok s) :
    ((s.tablesOf .entity).map (·.name)).Nodup ∧
    ((s.tablesOf .entity).map (·.name)).Perm (m.entities.map (·.name.text)) ∧
    s.RefersBack ∧
    (m.Acyclic → ∀ e ∈ m.entities, ∀ r ∈ e.relations, r.target ≠ e.name →
      s.HasRelationColumn e r (some r.target.text)) ∧
    (¬ m.Acyclic → (s.tablesOf .entity).map (·.name) = m.entities.map (·.name.text) ∧
      ∀ before e after, m.entities = before ++ e :: after → ∀ r ∈ e.relations, s.HasRelationColumn e r
        (if r.target ∈ before.map (·.name) then some r.target.text else none)) ∧
    ∀ e ∈ m.entities, ∀ r ∈ e.relations, r.target = e.name → s.HasRelationColumn e r none := by
  obtain ⟨rfl, compiles⟩ := ofModel_ok.1 compiled
  have named := compiles.wellNamed
  have refers := compiles.refersIn_creationOrder
  have entities : m.schema.tablesOf .entity = Schema.entityTables [] m.creationOrder := m.tablesOf .entity
  have tables : (m.schema.tablesOf .entity).map (·.name) = m.creationOrder.map (·.name.text) := by
    rw [entities, Schema.entityTables_names]
  have order := refers.perm.map (·.name.text)
  have distinct : (m.entities.map (·.name.text)).Nodup := by
    have names := named.entity_names.map (f := Name.text) fun _ _ => Name.ext
    rwa [List.map_map] at names
  refine ⟨tables ▸ order.nodup_iff.2 distinct, tables ▸ order, compiles.refersBack, ?_, fun circle => ?_, ?_⟩
  · simpa only [Schema.HasRelationColumn, entities] using refers.acyclic
  · obtain ⟨declared, columns⟩ := refers.circle circle
    refine ⟨by rw [tables, declared], ?_⟩
    simpa only [Schema.HasRelationColumn, entities] using columns
  · simpa only [Schema.HasRelationColumn, entities] using refers.self

namespace Sample

def exit : Relation := ⟨⟨"exit", by decide⟩, ⟨"Road", by decide⟩⟩

def bound : Relation := ⟨⟨"bound", by decide⟩, ⟨"Town", by decide⟩⟩

def fork : Relation := ⟨⟨"fork", by decide⟩, exit.target⟩

def town : Entity := ⟨bound.target, [], [exit]⟩

def road : Entity := ⟨exit.target, [], [bound, fork]⟩

def roads : Model := ⟨none, [town, road]⟩

theorem roads_compile : Schema.ofModel roads = .ok roads.schema := by decide +kernel

theorem roads_circle : ¬ roads.Acyclic := fun acyclic =>
  acyclic town (.head (b := road) ⟨⟨by decide, by decide, exit, by decide, rfl⟩, by decide⟩
    (.single ⟨⟨by decide, by decide, bound, by decide, rfl⟩, by decide⟩))

theorem boxes_acyclic : boxes.Acyclic := (Model.isTargetsFirst_walkOrder (by decide)).1 (by decide)

end Sample

/-- Of towns and roads, which lead to each other, the towns are created first; boxes wait for the items in them. -/
theorem foreign_keys_exact_roads :
    (Sample.roads.schema.tablesOf .entity).map (·.name) = ["Town", "Road"] ∧
    Sample.roads.schema.HasRelationColumn Sample.town Sample.exit none ∧
    Sample.roads.schema.HasRelationColumn Sample.road Sample.bound (some "Town") ∧
    Sample.roads.schema.HasRelationColumn Sample.road Sample.fork none ∧
    ∀ e ∈ Sample.boxes.entities, ∀ r ∈ e.relations, Sample.boxes.schema.HasRelationColumn e r (some r.target.text) := by
  obtain ⟨_, _, _, _, circle, _⟩ := foreign_keys_exact Sample.roads_compile
  obtain ⟨order, columns⟩ := circle Sample.roads_circle
  obtain ⟨_, _, _, straight, _⟩ := foreign_keys_exact Sample.boxes_compile
  have others : ∀ e ∈ Sample.boxes.entities, ∀ r ∈ e.relations, r.target ≠ e.name := by decide
  exact ⟨order, columns [] Sample.town [Sample.road] rfl _ (by decide),
    columns [Sample.town] Sample.road [] rfl _ (by decide), columns [Sample.town] Sample.road [] rfl _ (by decide),
    fun e he r hr => straight Sample.boxes_acyclic e he r hr (others e he r hr)⟩

end TreeStore
