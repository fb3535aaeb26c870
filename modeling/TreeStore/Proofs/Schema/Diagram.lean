import TreeStore.Proofs.Schema.DiagramText
import TreeStore.Proofs.Schema.ForeignKeys
import TreeStore.Proofs.Schema.GeneratedNames
import TreeStore.Proofs.TextMap

/-! What diagrams show. The ends of links are found by name, so that a foreign key is shown if some table bears the name that
it leads to. In the schema of a model every foreign key leads to a table, and no two tables have one name. -/

namespace TreeStore

open Schema

/-! ### Foreign keys as edges -/

def Table.references (t : Table) : List Edge :=
  t.columns.filterMap fun c => c.references?.map fun target => ⟨t.name, target, c.name⟩

def Schema.references (s : Schema) : List Edge := s.tables.flatMap (·.references)

namespace Table

theorem map_foreignKeys (t : Table) : t.foreignKeys.map (fun k => ⟨t.name, k.2, k.1⟩) = t.references := by
  simp [foreignKeys, references, List.map_filterMap, Function.comp_def]

theorem mem_references {t : Table} {e : Edge} : e ∈ t.references ↔
    ∃ c ∈ t.columns, c.references? = some e.target ∧ e.source = t.name ∧ e.column = c.name := by
  obtain ⟨source, target, column⟩ := e
  simp only [references, List.mem_filterMap, Option.map_eq_some_iff, Edge.mk.injEq]
  constructor
  · rintro ⟨c, hc, _, reference, rfl, rfl, rfl⟩
    exact ⟨c, hc, reference, rfl, rfl⟩
  · rintro ⟨c, hc, reference, rfl, rfl⟩
    exact ⟨c, hc, target, reference, rfl, rfl, rfl⟩

theorem filter_references (t : Table) (name : String) :
    t.references.filter (·.source = name) = if t.name = name then t.references else [] := by
  have own : ∀ e ∈ t.references, e.source = t.name := fun e mem => by
    obtain ⟨_, _, _, source, _⟩ := mem_references.1 mem
    exact source
  split
  · next same => exact List.filter_eq_self.2 fun e mem => decide_eq_true ((own e mem).trans same)
  · next other => exact List.filter_eq_nil_iff.2 fun e mem same => other ((own e mem).symm.trans (of_decide_eq_true same))

end Table

namespace Schema

theorem Graph.exists_number {nodes : List String} {name : String} (mem : name ∈ nodes) :
    ∃ i, (numbers nodes).get? name = some i ∧ nodes.get i = name := by
  -- Where several nodes have the name, the one that is found has it too.
  have key : name ∈ (numbers nodes).keys := by
    rw [numbers, TextMap.mem_keys_ofList]
    simpa [Function.comp_def] using mem
  obtain ⟨i, found⟩ := Option.isSome_iff_exists.1 ((TextMap.mem_keys _).1 key)
  obtain ⟨j, _, pair⟩ := List.mem_map.1 (TextMap.mem_of_get?_ofList found)
  obtain ⟨same, rfl⟩ := Prod.mk.inj pair
  exact ⟨j, found, same⟩

/-- No foreign key of a table is left out if each leads to a node. -/
theorem Graph.edges_linksFrom (g : Graph) {t : Table} (own : t.name ∈ g.nodes)
    (known : ∀ k ∈ t.foreignKeys, k.2 ∈ g.nodes) : (linksFrom (numbers g.nodes) t).map g.edge = t.references := by
  obtain ⟨source, found, sourceName⟩ := exists_number own
  rw [← t.map_foreignKeys, linksFrom]
  generalize t.foreignKeys = keys at known
  induction keys with
  | nil => rfl
  | cons k rest ih =>
    obtain ⟨first, others⟩ := List.forall_mem_cons.1 known
    obtain ⟨target, there, targetName⟩ := exists_number first
    have head : g.edge ⟨source, target, k.1⟩ = ⟨t.name, k.2, k.1⟩ := by rw [edge, sourceName, targetName]
    simp [found, there, head, ← ih others]

theorem edges_eq_references {s : Schema}
    (known : ∀ t ∈ s.tables, ∀ k ∈ t.foreignKeys, k.2 ∈ s.tables.map (·.name)) : s.edges = s.references := by
  rw [edges, Graph.edges, graph, List.map_flatMap]
  exact List.flatMap_congr fun t ht => s.graph.edges_linksFrom (List.mem_map_of_mem ht) (known t ht)

theorem filter_references {s : Schema} (distinct : (s.tables.map (·.name)).Nodup) {t : Table} (mem : t ∈ s.tables) :
    s.references.filter (·.source = t.name) = t.references := by
  rw [references, List.filter_flatMap]
  simp only [Table.filter_references]
  generalize s.tables = tables at distinct mem
  induction tables with
  | nil => cases mem
  | cons u rest ih =>
    obtain ⟨first, distinct⟩ := List.nodup_cons.1 distinct
    rw [List.flatMap_cons]
    rcases List.mem_cons.1 mem with rfl | later
    · have none : ∀ u ∈ rest, (if u.name = t.name then u.references else []) = [] := fun u hu =>
        if_neg fun same => first (List.mem_map.2 ⟨u, hu, same⟩)
      rw [if_pos rfl, List.flatMap_eq_nil_iff.2 none, List.append_nil]
    · have other : u.name ≠ t.name := fun same => first (List.mem_map.2 ⟨t, later, same.symm⟩)
      rw [if_neg other, List.nil_append, ih distinct later]

end Schema

/-! ### Schemas of models -/

theorem ScalarKind.columnType_plain (k : ScalarKind) : Ident.Plain k.columnType := by
  have all : k.columnType.toList.all Ident.isPart = true := by cases k <;> decide
  exact List.all_eq_true.1 all

namespace Model.Compiles

variable {m : Model} (compiles : m.Compiles)
include compiles

theorem names_nodup : (m.schema.tables.map (·.name)).Nodup := by
  rw [m.schema_tables]
  exact names_of_keys Text.lower compiles.table_keys

/-- Every foreign key leads to a table, spelled the same. -/
theorem foreignKeys_listed {t : Table} (mem : t ∈ m.tables) : ∀ k ∈ t.foreignKeys, k.2 ∈ m.tables.map (·.name) := by
  intro k hk
  obtain ⟨e, he, same⟩ := compiles.table_references mem (List.mem_map_of_mem hk)
  obtain ⟨created, there⟩ := compiles.entityTable_mem he
  exact same ▸ List.mem_map_of_mem there

theorem edges_eq : m.schema.edges = m.schema.references := by
  refine edges_eq_references ?_
  rw [m.schema_tables]
  exact fun t => compiles.foreignKeys_listed

theorem table_plain {t : Table} (mem : t ∈ m.schema.tables) : t.Plain := by
  rw [m.schema_tables] at mem
  refine ⟨Ident.isValid_part (compiles.table_checked mem).1, compiles.table_columns mem, fun c hc => ?_⟩
  obtain ⟨kind, type⟩ := compiles.table_types mem hc
  exact ⟨Ident.isValid_part ((compiles.table_checked mem).2 c hc), type ▸ kind.columnType_plain⟩

theorem edge_plain {e : Edge} (mem : e ∈ m.schema.references) : e.Plain := by
  obtain ⟨t, ht, listed⟩ := List.mem_flatMap.1 mem
  obtain ⟨c, hc, reference, source, column⟩ := Table.mem_references.1 listed
  have plain := compiles.table_plain ht
  have key : (c.name, e.target) ∈ t.foreignKeys := List.mem_filterMap.2 ⟨c, hc, by simp [reference]⟩
  rw [m.schema_tables] at ht
  obtain ⟨u, hu, target⟩ := List.mem_map.1 (compiles.foreignKeys_listed ht _ key)
  rw [← m.schema_tables] at hu
  have other : u.name = e.target := target
  exact ⟨source ▸ plain.name, other ▸ (compiles.table_plain hu).name, column ▸ (plain.each c hc).name⟩

/-- Both columns of the junction table of an entity's relation to itself are edges. -/
theorem self_edges {e : Entity} (he : e ∈ m.entities) {r : Relation} (hr : r ∈ e.relations) (self : r.target = e.name) :
    m.schema.references.filter (·.source = junctionTable e.name.text r.name.text) =
      [⟨junctionTable e.name.text r.name.text, e.name.text, contextColumn e.name.text⟩,
        ⟨junctionTable e.name.text r.name.text, e.name.text, "child_" ++ contextColumn e.name.text⟩] := by
  have mem : junction e.name r ∈ m.schema.tables := m.schema_tables ▸ junction_mem he hr
  refine (filter_references compiles.names_nodup mem).trans ?_
  simp [Table.references, junction, junctionTarget, self]

end Model.Compiles

/-- The diagram of a schema has a node for each table, an edge for each foreign key, and nothing else. Its text has their
lines in the order of tables and columns, and a node's line shows all columns of its table and the style of its kind. -/
theorem diagram_exact {m : Model} {s : Schema} (compiled : Schema.ofModel m = .ok s) :
    s.graph.nodes = s.tables.map (·.name) ∧ s.graph.nodes.Nodup ∧
    s.graph.edges = s.references ∧
    (∀ e ∈ m.entities, ∀ r ∈ e.relations, r.target = e.name →
      s.graph.edges.filter (·.source = junctionTable e.name.text r.name.text) =
        [⟨junctionTable e.name.text r.name.text, e.name.text, contextColumn e.name.text⟩,
          ⟨junctionTable e.name.text r.name.text, e.name.text, "child_" ++ contextColumn e.name.text⟩]) ∧
    ∃ nodes edges, Text.lines s.dot = preamble ++ nodes ++ [""] ++ edges ++ ["\x7d", ""] ∧
      nodes.map Diagram.node? = s.tables.map (some ·.outline) ∧
      edges.map Diagram.edge? = s.references.map some := by
  obtain ⟨rfl, compiles⟩ := ofModel_ok.1 compiled
  have edges : m.schema.graph.edges = m.schema.references := compiles.edges_eq
  refine ⟨rfl, compiles.names_nodup, edges, ?_, m.schema.tables.map nodeLine, m.schema.references.map edgeLine,
    ?_, ?_, ?_⟩
  · intro e he r hr self
    rw [edges]
    exact compiles.self_edges he hr self
  · have plain : ∀ e ∈ m.schema.edges, e.Plain := compiles.edges_eq ▸ fun e => compiles.edge_plain
    rw [lines_dot (fun t => compiles.table_plain) plain, dotLines, compiles.edges_eq]
    simp
  · rw [List.map_map]
    exact List.map_congr_left fun t ht => (Diagram.node?_iff (compiles.table_plain ht)).2 rfl
  · rw [List.map_map]
    exact List.map_congr_left fun e he => (Diagram.edge?_iff (compiles.edge_plain he)).2 rfl

/-- Of roads that fork, the table of pairs has two edges to the one of roads. -/
theorem diagram_exact_roads : Schema.ofModel Sample.roads = .ok Sample.roads.schema ∧
    Sample.roads.schema.graph.edges.filter (·.source = "relation_Road_fork") =
      [⟨"relation_Road_fork", "Road", "Road_id"⟩, ⟨"relation_Road_fork", "Road", "child_Road_id"⟩] ∧
    ∃ nodes edges, Text.lines Sample.roads.schema.dot = preamble ++ nodes ++ [""] ++ edges ++ ["\x7d", ""] ∧
      nodes.length = 6 ∧ edges.length = 7 := by
  obtain ⟨_, _, _, self, nodes, edges, text, tables, keys⟩ := diagram_exact Sample.roads_compile
  refine ⟨Sample.roads_compile, self Sample.road (by decide) Sample.fork (by decide) rfl, nodes, edges, text, ?_, ?_⟩
  · have count := congrArg List.length tables
    rw [List.length_map, List.length_map] at count
    exact count.trans (by decide +kernel)
  · have count := congrArg List.length keys
    rw [List.length_map, List.length_map] at count
    exact count.trans (by decide +kernel)

end TreeStore
