import TreeStore.Proofs.Load.EntityContents

/-! What is kept of the surroundings of leaves. A leaf's table has a column for every entity that can be above the
leaf, so that no id on a way up is dropped, and in each column of a row stands the id of the nearest node of the
column's entity. -/

namespace TreeStore

open Database Loader

/-- The entities that the table of a leaf's surroundings has columns for. -/
def Model.contextEntities (m : Model) (leaf : String) : List String :=
  (m.entities.map (·.name.text)).filter (m.hierarchy.ancestorsOf leaf).contains ++ [leaf]

namespace Model

variable {m : Model} {leaf : Name}

theorem relationships_columns : (Schema.relationships m m.hierarchy leaf).columns =
    (m.contextEntities leaf.text).map Schema.context := by
  rw [contextEntities, List.map_append]
  rfl

theorem contextEntities_mem {e : Entity} (mem : e ∈ m.entities) {type : String}
    (listed : type ∈ m.contextEntities e.name.text) : ∃ f ∈ m.entities, f.name.text = type := by
  rcases List.mem_append.1 listed with above | own
  · exact List.mem_map.1 (List.mem_filter.1 above).1
  · exact ⟨e, mem, (List.mem_singleton.1 own).symm⟩

/-- Every entity on a lawful way up has a column. -/
theorem contextEntities_of_line {l : Label} {line : List Label} (lawful : Lawful m (l :: line)) {k : Label}
    (mem : k ∈ l :: line) : k.type ∈ m.contextEntities l.type := by
  by_cases same : k.type = l.type
  · exact List.mem_append_right _ (List.mem_singleton.2 same)
  · have inside : k ∈ line := (List.mem_cons.1 mem).resolve_left fun eq => same (congrArg Label.type eq)
    obtain ⟨e, he, name⟩ := lawful.entities k mem
    have above := Hierarchy.mem_ancestorsOf.2 ⟨same, lawful.above inside⟩
    refine List.mem_append_left _ (List.mem_filter.2 ⟨List.mem_map.2 ⟨e, he, name⟩, ?_⟩)
    rw [List.contains_iff_mem]
    exact above

theorem contextEntities_nodup (compiles : m.Compiles) {e : Entity} (mem : e ∈ m.entities) :
    (m.contextEntities e.name.text).Nodup := by
  have columns := compiles.relationships_distinct mem
  rw [relationships_columns, List.map_map] at columns
  exact columns.of_map

end Model

variable {V : Type} {vs : ValueSystem V} {m : Model}

/-- The ids of the nearest nodes of some entities on a way up, and null for an entity that has none there. -/
def nearestIds (vs : ValueSystem V) (db : Database V) (types : List String) (line : List Label) : Cells V :=
  types.map fun type => ((nearest? type line).bind (db.idAt vs)).map .id

theorem surroundings_eq (compiles : m.Compiles) {db : Database V} {e : Entity} (he : e ∈ m.entities)
    {line : List Label} (lawful : Lawful m line) (knows : db.Knows vs line) :
    db.surroundings vs m e line = nearestIds vs db (m.contextEntities e.name.text) line := by
  rw [surroundings, contextIds, idRow, Model.relationships_columns, nearestIds, List.map_map, List.map_map]
  refine List.map_congr_left fun type listed => ?_
  obtain ⟨f, hf, rfl⟩ := Model.contextEntities_mem he listed
  have carried : Carried m db (db.contextOf vs line) := carried_contextOf lawful
  simp only [Function.comp_apply]
  rw [contextId?_eq compiles carried.entities hf rfl, contextOf_get? knows]

/-- The table of a leaf's surroundings holds just the ids on the ways up from the leaf's nodes. -/
structure HoldsSurroundings (vs : ValueSystem V) (calls : List LoadCall) (db : Database V) (leaf : String)
    (types : List String) (t : StoredTable V) : Prop where
  columns : t.columns.map (·.name) = types.map Schema.contextColumn
  apart : types.Nodup
  distinct : t.rows.Nodup
  rows : ∀ row, row ∈ t.rows ↔
    ∃ x, BearingIn calls x ∧ x.node.type = leaf ∧ row = nearestIds vs db types x.line

namespace Contents

variable {calls : List LoadCall} {db : Database V} (contents : Contents vs m calls db) (compiles : m.Compiles)
include contents compiles

theorem holdsSurroundings {e : Entity} (he : e ∈ m.entities) (leaf : m.hierarchy.isLeaf e.name.text = true) :
    HoldsSurroundings vs calls db e.name.text (m.contextEntities e.name.text)
      (db.tableAt vs (Schema.relationships m m.hierarchy e.name)) where
  columns := by
    have names : ∀ t : Table, (stored vs t).columns.map (·.name) = t.columns.map (·.name) := fun t => by
      simp [stored]
    rw [show (db.tableAt vs (Schema.relationships m m.hierarchy e.name)).columns =
      (stored vs (Schema.relationships m m.hierarchy e.name)).columns from rfl, names, Model.relationships_columns,
      List.map_map]
    rfl
  apart := Model.contextEntities_nodup compiles he
  distinct := (contents.consistent.ids _ (Model.Compiles.relationships_mem he leaf) (.inr rfl)).distinct
  rows := by
    have mem := Model.Compiles.relationships_mem he leaf
    intro row
    constructor
    · intro hrow
      obtain ⟨c, hc, x, hx, origin⟩ := contents.origin _ mem (fun junction => by cases junction) row hrow
      cases origin with
      | entity bears table carried => cases table.kind
      | leaf bears entity name leaf' table ids =>
        have names := Model.relationshipsTable_injective (congrArg Table.name table)
        obtain rfl := compiles.wellNamed.entity_of_text he entity names
        have recorded := contents.recorded c hc x hx
        rw [surroundings_eq compiles he (contents.lawful c hc x hx) recorded.known] at ids
        exact ⟨x, ⟨bears, c, hc, hx⟩, name.symm, ids⟩
      | pair bears asked entity own first target table above id ids =>
        have kind := congrArg Table.kind table
        cases kind
    · rintro ⟨x, ⟨bears, c, hc, hx⟩, type, rfl⟩
      have recorded := contents.recorded c hc x hx
      rw [← surroundings_eq compiles he (contents.lawful c hc x hx) recorded.known]
      exact recorded.leaf bears e he type.symm leaf

end Contents

/-- After loads that have all succeeded the table of a leaf's surroundings holds one row for each tuple of ids on
the way up from a node of the leaf, in each column the id of the nearest node with attributes of the column's
entity, and no other row; and every node with attributes on such a way has a column for its id. -/
theorem surroundings_exact (ideal : vs.Ideal) (enforce : Bool) {schema : Schema}
    (compiled : Schema.ofModel m = .ok schema) {calls : List LoadCall} (rooted : ∀ c ∈ calls, c.tree.RootedIn m)
    (all : (LoadState.founded vs enforce schema).AllLoad vs enforce calls) {e : Entity} (he : e ∈ m.entities)
    (leaf : e.relations = []) :
    let db := ((LoadState.founded vs enforce schema).loads vs enforce calls).database
    ∃ t types, db.table? (Schema.relationshipsTable e.name.text) = some t ∧
      (∀ type ∈ types, ∃ f ∈ m.entities, f.name.text = type) ∧
      HoldsSurroundings vs calls db e.name.text types t ∧
      ∀ x, BearingIn calls x → x.node.type = e.name.text → ∀ l ∈ x.line, l.bears = true →
        l.type ∈ types ∧ ∃ u row n, db.table? l.type = some u ∧ row ∈ u.rows ∧
          u.carries vs l.attributes row = true ∧ u.idOf? row = some n ∧ db.idAt vs l = some n := by
  obtain ⟨rfl, compiles⟩ := ofModel_ok.1 compiled
  have contents := LoadState.founded_loads_contents compiles ideal enforce rooted all
  have isLeaf := (compiles.wellNamed.isLeaf_iff he).2 leaf
  intro db
  have table := contents.consistent.table? compiles (Model.Compiles.relationships_mem he isLeaf)
  refine ⟨_, m.contextEntities e.name.text, table, fun type mem => Model.contextEntities_mem he mem,
    contents.holdsSurroundings compiles he isLeaf, ?_⟩
  intro x bearing type l mem bears
  have lawful := contents.lawful_of bearing
  refine ⟨type ▸ Model.contextEntities_of_line lawful mem, ?_⟩
  obtain ⟨u, tableFor⟩ := compiles.tableFor (lawful.entities l mem)
  obtain ⟨n, id⟩ := Option.isSome_iff_exists.1 (contents.knows bearing l mem bears)
  obtain ⟨row, hrow, carried, number⟩ := idAt_row compiles contents.consistent.there tableFor id
  have found := contents.consistent.table? compiles tableFor.mem
  rw [tableFor.name] at found
  exact ⟨_, row, n, found, hrow, carried, number, id⟩

/-- The item of a box is kept with the box. -/
theorem surroundings_of_box :
    let db := (Sample.start.loads ColumnValue.system true [Sample.loading "7" "x"]).database
    ∃ t types, db.table? "Item_relationships" = some t ∧
      HoldsSurroundings ColumnValue.system [Sample.loading "7" "x"] db "Item" types t := by
  have rooted : ∀ c ∈ [Sample.loading "7" "x"], c.tree.RootedIn Sample.boxes := fun c mem => by
    rw [List.mem_singleton.1 mem]
    exact Sample.box_rooted "7" "x"
  obtain ⟨t, types, found, _, holds, _⟩ := surroundings_exact ColumnValue.system_ideal true Sample.boxes_compile rooted
    ⟨⟨_, Sample.start_loads⟩, trivial⟩ (List.mem_cons_of_mem _ List.mem_cons_self) rfl
  exact ⟨t, types, found, holds⟩

end TreeStore
