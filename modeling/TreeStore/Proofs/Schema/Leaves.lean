import TreeStore.Proofs.Schema.ForeignKeys

/-! Leaves and what is above them. The hierarchy of a model has as ancestors of an entity just those from which a chain of
relations leads to it, and the table of a leaf's surroundings has a column for each of them. -/

namespace TreeStore

namespace Model.Compiles

variable {m : Model} (compiles : m.Compiles)
include compiles

theorem has_iff {f : Entity} (hf : f ∈ m.entities) {child : String} :
    m.hierarchy.has f.name.text child = true ↔ ∃ g, m.Leads f g ∧ g.name.text = child := by
  rw [Model.hierarchy, Hierarchy.has_ofEntries]
  constructor
  · rintro ⟨entry, mem, pair⟩
    obtain ⟨e, he, r, hr, rfl⟩ := mem_hierarchyEntries.1 mem
    obtain ⟨parent, rfl⟩ := Prod.mk.inj pair
    obtain rfl := compiles.wellNamed.entity_of_text he hf parent
    obtain ⟨g, hg, target⟩ := compiles.target_mem he hr
    exact ⟨g, ⟨hf, hg, r, hr, target.symm⟩, congrArg Name.text target⟩
  · rintro ⟨g, ⟨_, _, r, hr, target⟩, rfl⟩
    exact ⟨_, mem_hierarchyEntries.2 ⟨f, hf, r, hr, rfl⟩, congrArg (f.name.text, ·.text) target⟩

/-- What is above an entity in the hierarchy are the entities from which relations lead to it: that of several relations
to one target only the first is entered makes no difference. -/
theorem above_iff {f e : Entity} (hf : f ∈ m.entities) (he : e ∈ m.entities) :
    m.hierarchy.Above f.name.text e.name.text ↔ Relation.TransGen m.Leads f e := by
  constructor
  · intro above
    have reached : ∀ child, m.hierarchy.Above f.name.text child →
        ∃ g, Relation.TransGen m.Leads f g ∧ g ∈ m.entities ∧ g.name.text = child := by
      intro child above
      induction above with
      | single edge =>
        obtain ⟨g, leads, name⟩ := (compiles.has_iff hf).1 edge
        exact ⟨g, .single leads, leads.2.1, name⟩
      | tail _ edge ih =>
        obtain ⟨g, way, hg, rfl⟩ := ih
        obtain ⟨k, leads, name⟩ := (compiles.has_iff hg).1 edge
        exact ⟨k, .tail way leads, leads.2.1, name⟩
    obtain ⟨g, way, hg, name⟩ := reached _ above
    exact compiles.wellNamed.entity_of_text hg he name ▸ way
  · intro way
    have edge : ∀ s t, m.Leads s t → m.hierarchy.has s.name.text t.name.text = true := fun s t leads =>
      (compiles.has_iff leads.1).2 ⟨t, leads, rfl⟩
    exact way.lift (p := fun parent child => m.hierarchy.has parent child = true) (·.name.text) edge

/-- The columns of a leaf's table, in the order in which entities are declared. -/
theorem relationships_above {e : Entity} (he : e ∈ m.entities) (leaf : e.relations = []) :
    ∃ above : List Entity, above.Sublist m.entities ∧ (∀ f, f ∈ above ↔ Relation.TransGen m.Leads f e) ∧
      (Schema.relationships m m.hierarchy e.name).columns = (above ++ [e]).map (Schema.context ·.name.text) := by
  refine ⟨m.entities.filter fun f => (m.hierarchy.ancestorsOf e.name.text).contains f.name.text,
    List.filter_sublist, fun f => ?_, ?_⟩
  · rw [List.mem_filter, List.contains_iff_mem, Hierarchy.mem_ancestorsOf]
    constructor
    · rintro ⟨hf, _, above⟩
      exact (compiles.above_iff hf he).1 above
    · intro way
      obtain ⟨_, ⟨hf, _, r, hr, _⟩, _⟩ := Relation.TransGen.head'_iff.1 way
      refine ⟨hf, fun same => ?_, (compiles.above_iff hf he).2 way⟩
      -- No relation leads out of the leaf, so that it is not above itself.
      obtain rfl := compiles.wellNamed.entity_of_text hf he same
      rw [leaf] at hr
      cases hr
  · simp [Schema.relationships, List.filter_map, Function.comp_def]

theorem relationships_iff {e : Entity} (he : e ∈ m.entities) {t : Table} :
    (t ∈ m.schema.tablesOf .relationships ∧ t.name = Schema.relationshipsTable e.name.text) ↔
      e.relations = [] ∧ t = Schema.relationships m m.hierarchy e.name := by
  rw [m.tablesOf]
  constructor
  · rintro ⟨mem, name⟩
    obtain ⟨f, hf, leaf, rfl⟩ := mem_relationshipTables.1 mem
    obtain rfl := compiles.wellNamed.entity_of_text hf he (relationshipsTable_injective name)
    exact ⟨(compiles.wellNamed.isLeaf_iff hf).1 leaf, rfl⟩
  · rintro ⟨leaf, rfl⟩
    exact ⟨mem_relationshipTables.2 ⟨e, he, (compiles.wellNamed.isLeaf_iff he).2 leaf, rfl⟩, rfl⟩

end Model.Compiles

/-- The ancestors of an entity are the other entities from which entries of the hierarchy lead down to it. In the schema
of a model, an entity without relations, which is a leaf of the hierarchy, has a table of its surroundings and no other
entity has one; in the table there are a column for each entity from which relations lead to the leaf, in the order of
declaration, and then one for the leaf. -/
theorem leaves_exact :
    (∀ (h : Hierarchy) (entity : String), (h.ancestorsOf entity).Pairwise (· < ·) ∧
      ∀ x, x ∈ h.ancestorsOf entity ↔ x ≠ entity ∧ h.Above x entity) ∧
    ∀ (m : Model) (s : Schema), Schema.ofModel m = .ok s → ∀ e ∈ m.entities,
      ((∃ t ∈ s.tablesOf .relationships, t.name = Schema.relationshipsTable e.name.text) ↔ e.relations = []) ∧
      (e.relations = [] ↔ s.hierarchy.isLeaf e.name.text = true) ∧
      (e.relations = [] → ∀ t ∈ s.tables, t.name = Schema.relationshipsTable e.name.text → t.kind = .relationships ∧
        ∃ above : List Entity, above.Sublist m.entities ∧ (∀ f, f ∈ above ↔ Relation.TransGen m.Leads f e) ∧
          t.columns = (above ++ [e]).map (Schema.context ·.name.text)) := by
  refine ⟨fun h entity => ⟨h.ancestorsOf_sorted entity, fun _ => Hierarchy.mem_ancestorsOf⟩, fun m s compiled e he => ?_⟩
  obtain ⟨rfl, compiles⟩ := ofModel_ok.1 compiled
  refine ⟨?_, ?_, fun leaf t ht name => ?_⟩
  · constructor
    · rintro ⟨t, ht, name⟩
      exact ((compiles.relationships_iff he).1 ⟨ht, name⟩).1
    · exact fun leaf => ⟨_, (compiles.relationships_iff he).2 ⟨leaf, rfl⟩⟩
  · rw [m.schema_hierarchy, compiles.wellNamed.isLeaf_iff he]
  · rw [m.schema_tables] at ht
    have own := Model.Compiles.relationships_mem he ((compiles.wellNamed.isLeaf_iff he).2 leaf)
    obtain rfl := compiles.table_unique ht own (name ▸ sameName_self _)
    exact ⟨rfl, compiles.relationships_above he leaf⟩

namespace Sample

def lit : Relation := ⟨⟨"lit", by decide⟩, ⟨"Lamp", by decide⟩⟩

def lamp : Entity := ⟨lit.target, [], []⟩

def litRoads : Model := ⟨none, [lamp, town, ⟨exit.target, [], [bound, lit]⟩]⟩

theorem litRoads_compile : Schema.ofModel litRoads = .ok litRoads.schema := by decide +kernel

end Sample

/-- Lamps are a leaf below a circle. -/
theorem leaves_exact_litRoads :
    ∃ t ∈ Sample.litRoads.schema.tables, t.name = "Lamp_relationships" ∧
      ∃ above : List Entity, above.Sublist Sample.litRoads.entities ∧
        (∀ f, f ∈ above ↔ Relation.TransGen Sample.litRoads.Leads f Sample.lamp) ∧
        t.columns = (above ++ [Sample.lamp]).map (Schema.context ·.name.text) := by
  obtain ⟨there, _, columns⟩ := leaves_exact.2 _ _ Sample.litRoads_compile Sample.lamp (by decide)
  obtain ⟨t, ht, name⟩ := there.2 rfl
  have listed := (List.mem_filter.1 ht).1
  exact ⟨t, listed, name, (columns rfl t listed name).2⟩

/-- Boxes, which are no leaf, and an entity named as a table of their surroundings would be. -/
def Sample.boxesAside : Model := ⟨none, boxes.entities ++ [⟨⟨"Box_relationships", by decide⟩, [], []⟩]⟩

/-- A table may bear such a name although the entity has relations: it is that of another entity. -/
theorem surroundings_name_taken : Schema.ofModel Sample.boxesAside = .ok Sample.boxesAside.schema ∧
    ∃ e ∈ Sample.boxesAside.entities,
      ¬ ((∃ t ∈ Sample.boxesAside.schema.tables, t.name = Schema.relationshipsTable e.name.text) ↔ e.relations = []) := by
  decide +kernel

end TreeStore
