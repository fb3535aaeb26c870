import TreeStore.Proofs.Load.Reapplied

/-! No row is there twice: in every state that loads and further applications of the schema lead to, also if they
are cut short, no two rows of a table agree where they are to differ. -/

namespace TreeStore

open Database Loader

variable {V : Type} (vs : ValueSystem V)

namespace StoredTable

/-- Two rows have equal cells in some columns, null being equal to null. -/
def AgreeOn (t : StoredTable V) (names : List String) (row row' : Cells V) : Prop :=
  ∀ n ∈ names, Cell.sameOrNull vs (t.cell row n) (t.cell row' n) = true

def UniqueOn (t : StoredTable V) (names : List String) : Prop := t.rows.Pairwise fun r r' => ¬ t.AgreeOn vs names r r'

def columnNames (t : StoredTable V) : List String := t.columns.map (·.name)

end StoredTable

/-- The rows of a model's tables are pairwise different: those of an entity apart from their ids, those of a leaf's
surroundings and of pairs altogether, those of the hierarchy in parent and child. -/
structure Database.Unrepeated (m : Model) (db : Database V) : Prop where
  entities : ∀ e ∈ m.entities, ∃ t, db.table? e.name.text = some t ∧
    t.UniqueOn vs (t.columnNames.filter (!sameName · Schema.idColumn))
  surroundings : ∀ e ∈ m.entities, e.relations = [] → ∃ t, db.table? (Schema.relationshipsTable e.name.text) = some t ∧
    t.UniqueOn vs t.columnNames
  pairs : ∀ e ∈ m.entities, ∀ r ∈ e.relations, ∃ t, db.table? (Schema.junctionTable e.name.text r.name.text) = some t ∧
    t.UniqueOn vs [Schema.contextColumn e.name.text, Schema.junctionTarget e.name.text r.target.text]
  hierarchy : ∃ t, db.table? Schema.registryTable = some t ∧ t.UniqueOn vs [Schema.parentColumn, Schema.childColumn]

/-! ### Consistent databases -/

section Consistent

variable {vs} {m : Model} {db : Database V}

theorem StoredTable.uniqueOn_entity {t : StoredTable V} {h : Hierarchy} {n : Int} (rows : t.EntityRows vs h n) :
    t.UniqueOn vs (t.columnNames.filter (!sameName · Schema.idColumn)) := by
  refine rows.distinct.imp fun {r r'} apart agree => apart fun c mem other => ?_
  exact agree c.name (List.mem_filter.2 ⟨List.mem_map_of_mem mem, by simp [other]⟩)

theorem sameOrNull_id {x y : Option Int} : Cell.sameOrNull vs (x.map .id) (y.map .id) = true ↔ x = y := by
  cases x <;> cases y <;> simp [Cell.sameOrNull, Cell.same]

theorem StoredTable.uniqueOn_ids {t : StoredTable V} (distinct : t.Distinct) (rows : IdRows t.columns.length t.rows) :
    t.UniqueOn vs t.columnNames := by
  refine rows.distinct.imp_of_mem fun {r r'} mem mem' apart agree => apart ?_
  obtain ⟨ids, width, rfl⟩ := rows.made r mem
  obtain ⟨ids', width', rfl⟩ := rows.made r' mem'
  refine row_ext distinct ((List.length_map _).trans width) ((List.length_map _).trans width') fun c hc => ?_
  have same := agree c.name (List.mem_map_of_mem hc)
  obtain ⟨x, cell⟩ := cell_idRow (t := t) ids c.name
  obtain ⟨x', cell'⟩ := cell_idRow (t := t) ids' c.name
  rw [cell, cell', sameOrNull_id] at same
  rw [cell, cell', same]

theorem registryOf_uniqueOn (ideal : vs.Ideal) (h : Hierarchy) :
    (registryOf vs h).UniqueOn vs [Schema.parentColumn, Schema.childColumn] := by
  have pairs : h.entries.Pairwise fun e e' => e.pair ≠ e'.pair := List.pairwise_map.1 h.distinct
  refine List.pairwise_map.2 (pairs.imp fun {e e'} apart agree => apart ?_)
  have parent := agree Schema.parentColumn (by simp)
  have child := agree Schema.childColumn (by simp)
  rw [registry_cell vs h e (i := 0) rfl, registry_cell vs h e' (i := 0) rfl] at parent
  rw [registry_cell vs h e (i := 1) rfl, registry_cell vs h e' (i := 1) rfl] at child
  exact Prod.ext (of_decide_eq_true ((sameOrNull_text ideal _ _).symm.trans parent))
    (of_decide_eq_true ((sameOrNull_text ideal _ _).symm.trans child))

section Tables

variable (consistent : Consistent vs m db) (compiles : m.Compiles)
include consistent compiles

theorem Database.Consistent.uniqueOn_entity {t : Table} (mem : t ∈ m.tables) (kind : t.kind = .entity) :
    ∃ u, db.table? t.name = some u ∧ u.UniqueOn vs (u.columnNames.filter (!sameName · Schema.idColumn)) := by
  obtain ⟨n, _, _, _, rows⟩ := consistent.entities t mem kind
  exact ⟨_, consistent.table? compiles mem, StoredTable.uniqueOn_entity rows⟩

theorem Database.Consistent.uniqueOn_ids {t : Table} (mem : t ∈ m.tables)
    (kind : t.kind = .junction ∨ t.kind = .relationships) :
    ∃ u, db.table? t.name = some u ∧ u.UniqueOn vs u.columnNames ∧ u.columnNames = t.columns.map (·.name) := by
  have rows : IdRows (db.tableAt vs t).columns.length (db.tableAt vs t).rows := by
    have width : (db.tableAt vs t).columns.length = t.columns.length := List.length_map _
    rw [width]
    exact consistent.ids t mem kind
  have distinct : (db.tableAt vs t).Distinct := stored_distinct vs (compiles.columns_distinct mem)
  refine ⟨_, consistent.table? compiles mem, StoredTable.uniqueOn_ids distinct rows, ?_⟩
  exact List.map_map

theorem Database.Consistent.unrepeated (ideal : vs.Ideal) : db.Unrepeated vs m where
  entities := fun e he => by
    obtain ⟨created, mem⟩ := compiles.entityTable_mem he
    obtain ⟨u, found, unique⟩ := consistent.uniqueOn_entity compiles mem rfl
    exact ⟨u, found, unique⟩
  surroundings := fun e he none => by
    have mem := Model.Compiles.relationships_mem he ((compiles.wellNamed.isLeaf_iff he).2 none)
    obtain ⟨u, found, unique, _⟩ := consistent.uniqueOn_ids compiles mem (.inr rfl)
    exact ⟨u, found, unique⟩
  pairs := fun e he r hr => by
    have mem := Model.Compiles.junction_mem he hr
    obtain ⟨u, found, unique, names⟩ := consistent.uniqueOn_ids compiles mem (.inl rfl)
    rw [names] at unique
    exact ⟨u, found, unique⟩
  hierarchy := ⟨registryOf vs m.hierarchy, consistent.registryTable?, registryOf_uniqueOn ideal m.hierarchy⟩

end Tables

end Consistent

/-! ### What may be done -/

inductive Action where
  | load (c : LoadCall)
  /-- A load during which requests fail from outside. -/
  | cut (c : LoadCall) (faults : Faults)
  | apply
  | applyCut (faults : Faults)

def Action.RootedIn (m : Model) : Action → Prop
  | .load c => c.tree.RootedIn m
  | .cut c _ => c.tree.RootedIn m
  | .apply => True
  | .applyCut _ => True

namespace LoadState

variable (enforce : Bool) (schema : Schema)

def cut (s : LoadState V) (c : LoadCall) (faults : Faults) : LoadState V :=
  let (_, columns, (database, _)) := Loader.run (Loader.load (store vs enforce).failing c.settings c.tree)
    (s.columns c.loader) (s.database, faults)
  { database, columns := fun l => if l = c.loader then columns else s.columns l }

def act (s : LoadState V) : Action → LoadState V
  | .load c => (s.load vs enforce c).2
  | .cut c faults => s.cut vs enforce c faults
  | .apply => { s with database := ((store vs enforce).apply schema.statements s.database).2 }
  | .applyCut faults =>
    { s with database := ((store vs enforce).failing.apply schema.statements (s.database, faults)).2.1 }

variable {vs} {m : Model} {s : LoadState V} (compiles : m.Compiles) (ideal : vs.Ideal)

section Keeping

variable {I : Database V → Prop} (each : StepsKeep vs m I)
include compiles ideal each

theorem cut_keeps (sound : Sound vs m s) (holds : I s.database) {c : LoadCall} (root : c.tree.RootedIn m)
    (faults : Faults) : Sound vs m (s.cut vs enforce c faults) ∧ I (s.cut vs enforce c faults).database := by
  have ready : Ready vs m { store := s.database, columns := s.columns c.loader } :=
    ⟨sound.consistent, sound.columns c.loader⟩
  obtain ⟨q, left, ready', ended⟩ :=
    Loader.load_cut compiles each ideal enforce c.settings root ⟨ready, holds⟩ faults
  have database : (s.cut vs enforce c faults).database = q.store := congrArg (·.store.1) ended
  have columns : ∀ l, (s.cut vs enforce c faults).columns l = if l = c.loader then q.columns else s.columns l :=
    fun l => congrArg (fun w => if l = c.loader then Progress.columns w else s.columns l) ended
  rw [database]
  refine ⟨⟨?_, fun l => ?_⟩, ready'.holds⟩
  · rw [database]
    exact ready'.ready.consistent
  · rw [columns]
    split
    · exact ready'.ready.columns
    · exact sound.columns l

theorem act_keeps (sound : Sound vs m s) (holds : I s.database) {a : Action} (root : a.RootedIn m) :
    Sound vs m (s.act vs enforce m.schema a) ∧ I (s.act vs enforce m.schema a).database := by
  cases a with
  | load c =>
    obtain ⟨sound', ends⟩ := load_ends enforce compiles ideal sound root
    exact ⟨sound', ends.keeps each compiles ideal sound.consistent holds⟩
  | cut c faults => exact cut_keeps enforce compiles ideal each sound holds root faults
  | apply =>
    have same := sound.consistent.apply_again compiles ideal enforce
    rw [act, same]
    exact ⟨⟨sound.consistent, sound.columns⟩, holds⟩
  | applyCut faults =>
    have same := sound.consistent.apply_again_failing compiles ideal enforce faults
    rw [act, same]
    exact ⟨⟨sound.consistent, sound.columns⟩, holds⟩

theorem acts_keeps (sound : Sound vs m s) (holds : I s.database) {actions : List Action}
    (rooted : ∀ a ∈ actions, a.RootedIn m) : Sound vs m (actions.foldl (act vs enforce m.schema) s) ∧
      I (actions.foldl (act vs enforce m.schema) s).database := by
  induction actions generalizing s with
  | nil => exact ⟨sound, holds⟩
  | cons a rest ih =>
    obtain ⟨first, kept⟩ := act_keeps enforce compiles ideal each sound holds (rooted a List.mem_cons_self)
    exact ih first kept fun b mem => rooted b (List.mem_cons_of_mem _ mem)

end Keeping

include compiles ideal

theorem acts_sound (sound : Sound vs m s) {actions : List Action} (rooted : ∀ a ∈ actions, a.RootedIn m) :
    Sound vs m (actions.foldl (act vs enforce m.schema) s) :=
  (acts_keeps enforce compiles ideal (.trivial vs m) sound .intro rooted).1

end LoadState

variable {vs}

/-- Whatever is loaded into a database and however often the schema is applied, and wherever that is cut short, no
row of the model's tables is there twice. -/
theorem rows_unrepeated {m : Model} (ideal : vs.Ideal) (enforce : Bool) {schema : Schema}
    (compiled : Schema.ofModel m = .ok schema) (actions : List Action) (rooted : ∀ a ∈ actions, a.RootedIn m) :
    (actions.foldl (LoadState.act vs enforce schema) (.founded vs enforce schema)).database.Unrepeated vs m := by
  obtain ⟨rfl, compiles⟩ := ofModel_ok.1 compiled
  have start := LoadState.founded_sound enforce compiles ideal
  exact (LoadState.acts_sound enforce compiles ideal start rooted).consistent.unrepeated compiles ideal

namespace Sample

/-- A box is loaded, the schema applied again, and another box loaded until the query for its item fails. -/
def cutShort : List Action :=
  [.load (loading "7" "x"), .apply, .cut (loading "8" "y") [none, none, none, some (.failed .connection none)],
    .applyCut [some (.failed .connection none)]]

end Sample

theorem rows_unrepeated_cut :
    let db := (Sample.cutShort.foldl (LoadState.act ColumnValue.system true Sample.boxes.schema) Sample.start).database
    (db.rowsOf "Box").length = 2 ∧ (db.rowsOf "Item").length = 1 ∧ db.Unrepeated ColumnValue.system Sample.boxes := by
  refine ⟨by decide +kernel, by decide +kernel, ?_⟩
  refine rows_unrepeated ColumnValue.system_ideal true Sample.boxes_compile Sample.cutShort ?_
  simp [Sample.cutShort, Action.RootedIn, Sample.loading, Sample.box_rooted]

end TreeStore
