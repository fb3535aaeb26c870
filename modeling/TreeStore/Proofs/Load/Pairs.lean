import TreeStore.Proofs.Load.EntityContents
import TreeStore.Proofs.Load.RelationColumns

/-! What is kept of pairs. The table of a relation that is the first to its target holds the ids of just those nodes
that stand directly below one another and both have attributes; the tables of further relations stay empty. -/

namespace TreeStore

open Database Loader

/-! ### Nodes below nodes -/

namespace Tree

mutual

/-- The nodes of a tree that stand directly below one another, the upper one first. -/
def edges : Tree → List (Label × Label)
  | ⟨type, attributes, children⟩ => edgesBelow ⟨type, attributes⟩ children

def edgesBelow (parent : Label) : List Tree → List (Label × Label)
  | [] => []
  | c :: rest => (parent, c.label) :: (edges c ++ edgesBelow parent rest)

end

end Tree

def Trail.edge? (x : Trail) : Option (Label × Label) := x.above.head?.map (·, x.node)

namespace Tree

mutual

theorem trailsAt_edges (path : NodePath) (above : List Label) : (t : Tree) →
    (t.trailsAt path above).filterMap Trail.edge? = (above.head?.map (·, t.label)).toList ++ t.edges
  | ⟨type, attributes, children⟩ => by
    rw [trailsAt, edges, ← trailsBelow_edges path ⟨type, attributes⟩ above 0]
    cases above <;> rfl

theorem trailsBelow_edges (path : NodePath) (parent : Label) (above : List Label) (index : Nat) : (ts : List Tree) →
    (trailsBelow path (parent :: above) index ts).filterMap Trail.edge? = edgesBelow parent ts
  | [] => rfl
  | c :: rest => by
    rw [trailsBelow, List.filterMap_append, trailsAt_edges, trailsBelow_edges, edgesBelow]
    rfl

end

theorem mem_edges {t : Tree} {p c : Label} :
    (p, c) ∈ t.edges ↔ ∃ x ∈ t.trails, x.above.head? = some p ∧ x.node = c := by
  have all : t.trails.filterMap Trail.edge? = t.edges := trailsAt_edges _ [] t
  simp [← all, List.mem_filterMap, Trail.edge?]

end Tree

/-- Two nodes with attributes, one directly below the other, in a tree that is loaded with its pairs. -/
def PairIn (calls : List LoadCall) (p c : Label) : Prop :=
  p.bears = true ∧ c.bears = true ∧ ∃ call ∈ calls, call.settings.recordJunctions = true ∧ (p, c) ∈ call.tree.edges

theorem PairIn.trail {calls : List LoadCall} {p c : Label} (pair : PairIn calls p c) : ∃ call ∈ calls,
    call.settings.recordJunctions = true ∧ ∃ x ∈ call.tree.trails, x.above.head? = some p ∧ x.node = c := by
  obtain ⟨_, _, call, hcall, asked, edge⟩ := pair
  obtain ⟨x, hx, head, node⟩ := Tree.mem_edges.1 edge
  exact ⟨call, hcall, asked, x, hx, head, node⟩

/-! ### Relations -/

section Relations

variable {m : Model} (compiles : m.Compiles) {e : Entity} (he : e ∈ m.entities) {r : Relation}
  (hr : r ∈ e.relations)
include compiles he hr

theorem Model.Compiles.relation_of_text {s : Relation} (hs : s ∈ e.relations) (same : s.name.text = r.name.text) :
    s = r :=
  List.inj_on_of_nodup_map (compiles.relation_keys he) hs hr (congrArg Text.lower same)

theorem Model.Compiles.firstTo_iff :
    e.FirstTo r ↔ m.hierarchy.relation? e.name.text r.target.text = some r.name.text := by
  rw [compiles.relation?_eq he]
  constructor
  · intro first
    rw [first]
    rfl
  · intro found
    obtain ⟨s, first, name⟩ := Option.map_eq_some_iff.1 found
    obtain rfl := compiles.relation_of_text he hr (List.mem_of_find?_eq_some first) name
    exact first

/-- A table of pairs is that of one relation only. -/
theorem Model.Compiles.junction_unique {f : Entity} (hf : f ∈ m.entities) {s : Relation} (hs : s ∈ f.relations)
    (same : Schema.junction e.name r = Schema.junction f.name s) : e = f ∧ r = s := by
  have columns := congrArg (fun t => t.columns.map (·.name)) same
  have parents : Schema.contextColumn e.name.text = Schema.contextColumn f.name.text := (List.cons.inj columns).1
  obtain rfl := compiles.entity_column_unique he hf (congrArg Text.lower parents)
  have names : s.name.text = r.name.text := by
    have tables := congrArg Table.name same
    simpa [Schema.junction, Schema.junctionTable, toString, ← String.toList_inj, String.toList_append, eq_comm]
      using tables
  exact ⟨rfl, (compiles.relation_of_text he hr hs names).symm⟩

end Relations

/-! ### Ids of nodes -/

variable {V : Type} (vs : ValueSystem V)

def Database.RowId (db : Database V) (l : Label) (n : Int) : Prop :=
  ∃ t row, db.table? l.type = some t ∧ row ∈ t.rows ∧ t.carries vs l.attributes row = true ∧ t.idOf? row = some n

variable {vs} {m : Model} {calls : List LoadCall} {db : Database V}

theorem Database.Consistent.rowId_iff (consistent : Consistent vs m db) (compiles : m.Compiles) (ideal : vs.Ideal)
    {l : Label} (entity : ∃ e ∈ m.entities, e.name.text = l.type) (known : (db.idAt vs l).isSome = true) {n : Int} :
    db.RowId vs l n ↔ db.idAt vs l = some n := by
  obtain ⟨u, table⟩ := compiles.tableFor entity
  obtain ⟨k, id⟩ := Option.isSome_iff_exists.1 known
  have found := consistent.table? compiles table.mem
  rw [table.name] at found
  obtain ⟨row, mem, carried, number⟩ := idAt_row compiles consistent.there table id
  rw [id, ← number]
  constructor
  · rintro ⟨t, row', found', mem', carried', number'⟩
    obtain rfl := Option.some.inj (found.symm.trans found')
    obtain ⟨_, _, _, _, rows⟩ := consistent.entities u table.mem table.kind
    obtain rfl := rows.row_unique ideal mem mem' carried carried'
    exact number'
  · intro number
    exact ⟨_, row, found, mem, carried, number⟩

/-! ### Tables of pairs -/

variable (vs) in
/-- The table of a relation holds just the ids of the nodes that stand below one another, from the relation's source to
its target. -/
structure HoldsPairs (calls : List LoadCall) (db : Database V) (e : Entity) (r : Relation) (t : StoredTable V) :
    Prop where
  columns : t.columns.map (·.name) = [e.name.text ++ "_id",
    if e.name.text = r.target.text then "child_" ++ (e.name.text ++ "_id") else r.target.text ++ "_id"]
  distinct : t.rows.Nodup
  rows : ∀ row, row ∈ t.rows ↔ ∃ p c n k, PairIn calls p c ∧ p.type = e.name.text ∧ c.type = r.target.text ∧
    db.RowId vs p n ∧ db.RowId vs c k ∧ row = [some (.id n), some (.id k)]

theorem junction_columns (source : Name) (r : Relation) :
    (stored vs (Schema.junction source r)).columns.map (·.name) = [source.text ++ "_id",
      if source.text = r.target.text then "child_" ++ (source.text ++ "_id") else r.target.text ++ "_id"] := by
  simp only [stored, Schema.junction, List.map_cons, List.map_nil, Schema.contextColumn, Schema.junctionTarget]
  split
  · next self => rw [self]
  · rfl

namespace Contents

variable (contents : Contents vs m calls db)
include contents

/-- Both nodes of a pair have an id. -/
theorem pair_known {p c : Label} (pair : PairIn calls p c) : ∀ l ∈ [p, c],
    (∃ e ∈ m.entities, e.name.text = l.type) ∧ (db.idAt vs l).isSome = true := by
  obtain ⟨call, hcall, _, x, hx, head, rfl⟩ := pair.trail
  have onLine : ∀ l ∈ [p, x.node], l ∈ x.line := by
    have parent := List.mem_of_mem_head? head
    simp [Trail.line, parent]
  have bear : ∀ l ∈ [p, x.node], l.bears = true := by simp [pair.1, pair.2.1]
  intro l mem
  exact ⟨(contents.lawful call hcall x hx).entities l (onLine l mem),
    (contents.recorded call hcall x hx).known l (onLine l mem) (bear l mem)⟩

variable (compiles : m.Compiles)
include compiles

theorem pair_rowId (ideal : vs.Ideal) {p c : Label} (pair : PairIn calls p c) : ∀ l ∈ [p, c], ∀ n,
    db.RowId vs l n ↔ db.idAt vs l = some n := fun l mem _ =>
  have ⟨entity, known⟩ := contents.pair_known pair l mem
  contents.consistent.rowId_iff compiles ideal entity known

variable {e : Entity} (he : e ∈ m.entities) {r : Relation} (hr : r ∈ e.relations)
include he hr

/-- Rows are those of pairs of nodes, and of the first relation only. -/
theorem pair_of_row {row : Cells V} (mem : row ∈ db.rowsOf (Schema.junctionTable e.name.text r.name.text)) :
    e.FirstTo r ∧ ∃ p c n k, PairIn calls p c ∧ p.type = e.name.text ∧ c.type = r.target.text ∧
      db.idAt vs p = some n ∧ db.idAt vs c = some k ∧ row = idRow [some n, some k] := by
  have table := Model.Compiles.junction_mem he hr
  obtain ⟨call, hcall, x, hx, origin⟩ := contents.origin _ table (fun registry => by cases registry) row mem
  cases origin with
  | entity bears table carried => cases table.kind
  | leaf bears entity name leaf table ids => cases congrArg Table.kind table
  | pair bears asked entity own first target table above id ids =>
    obtain ⟨rfl, rfl⟩ := compiles.junction_unique he hr entity own table
    obtain ⟨p, head, type, parent⟩ := parentOf_eq_some.1 above
    have edge := Tree.mem_edges.2 ⟨x, hx, head, rfl⟩
    exact ⟨(compiles.firstTo_iff he hr).2 first, p, x.node, _, _,
      ⟨idAt_bears parent, bears, call, hcall, asked, edge⟩, type, target.symm, parent, id, ids⟩

theorem row_of_pair (first : e.FirstTo r) {p c : Label} (pair : PairIn calls p c) (source : p.type = e.name.text)
    (target : c.type = r.target.text) {n k : Int} (parent : db.idAt vs p = some n) (child : db.idAt vs c = some k) :
    idRow [some n, some k] ∈ db.rowsOf (Schema.junctionTable e.name.text r.name.text) := by
  obtain ⟨call, hcall, asked, x, hx, head, rfl⟩ := pair.trail
  have above := parentOf_eq_some.2 ⟨p, head, source, parent⟩
  have entered := (compiles.firstTo_iff he hr).1 first
  exact (contents.recorded call hcall x hx).pair pair.2.1 asked e he r hr entered target.symm n k above child

theorem holdsPairs (ideal : vs.Ideal) (first : e.FirstTo r) :
    HoldsPairs vs calls db e r (db.tableAt vs (Schema.junction e.name r)) where
  columns := junction_columns e.name r
  distinct := (contents.consistent.ids _ (Model.Compiles.junction_mem he hr) (.inl rfl)).distinct
  rows := fun row => by
    constructor
    · intro mem
      obtain ⟨_, p, c, n, k, pair, source, target, parent, child, ids⟩ := contents.pair_of_row compiles he hr mem
      have rowId := contents.pair_rowId compiles ideal pair
      exact ⟨p, c, n, k, pair, source, target, (rowId p (by simp) n).2 parent, (rowId c (by simp) k).2 child, ids⟩
    · rintro ⟨p, c, n, k, pair, source, target, parent, child, rfl⟩
      have rowId := contents.pair_rowId compiles ideal pair
      exact contents.row_of_pair compiles he hr first pair source target ((rowId p (by simp) n).1 parent)
        ((rowId c (by simp) k).1 child)

theorem pairs_empty (further : ¬ e.FirstTo r) :
    db.rowsOf (Schema.junctionTable e.name.text r.name.text) = [] := by
  apply List.eq_nil_iff_forall_not_mem.2
  intro row mem
  exact further (contents.pair_of_row compiles he hr mem).1

end Contents

/-- After loads that have all succeeded the table of a relation that is the first to its target holds one row for each
pair of ids of a node of the source and a node of the target directly below it, both with attributes, in the trees that
have been loaded with their pairs, and no other row; the table of a further relation to the same target is empty. -/
theorem pairs_exact (ideal : vs.Ideal) (enforce : Bool) {schema : Schema} (compiled : Schema.ofModel m = .ok schema)
    (rooted : ∀ c ∈ calls, c.tree.RootedIn m)
    (all : (LoadState.founded vs enforce schema).AllLoad vs enforce calls) :
    let db := ((LoadState.founded vs enforce schema).loads vs enforce calls).database
    (∀ p c, PairIn calls p c → (∃! n, db.RowId vs p n) ∧ ∃! k, db.RowId vs c k) ∧
    ∀ e ∈ m.entities, ∀ r ∈ e.relations, ∃ t, db.table? (Schema.junctionTable e.name.text r.name.text) = some t ∧
      (e.FirstTo r → HoldsPairs vs calls db e r t) ∧ (¬ e.FirstTo r → t.rows = []) := by
  obtain ⟨rfl, compiles⟩ := ofModel_ok.1 compiled
  have contents := LoadState.founded_loads_contents compiles ideal enforce rooted all
  intro db
  refine ⟨fun p c pair => ?_, fun e he r hr => ?_⟩
  · have one : ∀ l ∈ [p, c], ∃! n, db.RowId vs l n := by
      intro l mem
      obtain ⟨n, id⟩ := Option.isSome_iff_exists.1 (contents.pair_known pair l mem).2
      have rowId := contents.pair_rowId compiles ideal pair l mem
      exact ⟨n, (rowId n).2 id, fun k there => Option.some.inj (((rowId k).1 there).symm.trans id)⟩
    exact ⟨one p (by simp), one c (by simp)⟩
  · have table := contents.consistent.table? compiles (Model.Compiles.junction_mem he hr)
    exact ⟨_, table, contents.holdsPairs compiles he hr ideal, contents.pairs_empty compiles he hr⟩

/-- The item of a box is paired with the box. -/
theorem pairs_of_box :
    let db := (Sample.start.loads ColumnValue.system true [Sample.loading "7" "x"]).database
    ∃ e ∈ Sample.boxes.entities, ∃ r ∈ e.relations,
      ∃ t, db.table? (Schema.junctionTable e.name.text r.name.text) = some t ∧
        HoldsPairs ColumnValue.system [Sample.loading "7" "x"] db e r t := by
  have rooted : ∀ c ∈ [Sample.loading "7" "x"], c.tree.RootedIn Sample.boxes := fun c mem => by
    rw [List.mem_singleton.1 mem]
    exact Sample.box_rooted "7" "x"
  have first : ∀ e ∈ Sample.boxes.entities, ∀ r ∈ e.relations, e.FirstTo r := by decide
  obtain ⟨e, he, r, hr⟩ : ∃ e ∈ Sample.boxes.entities, ∃ r, r ∈ e.relations :=
    ⟨_, List.mem_cons_self, _, List.mem_cons_self⟩
  obtain ⟨t, found, holds, _⟩ := (pairs_exact ColumnValue.system_ideal true Sample.boxes_compile rooted
    ⟨⟨_, Sample.start_loads⟩, trivial⟩).2 e he r hr
  exact ⟨e, he, r, hr, t, found, holds (first e he r hr)⟩

end TreeStore
