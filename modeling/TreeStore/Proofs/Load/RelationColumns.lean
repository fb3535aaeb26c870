import TreeStore.Proofs.Load.Declared
import TreeStore.Proofs.Load.Errors
import TreeStore.Proofs.Load.Session

/-! The columns of relations. Of the relations from one entity to another the hierarchy keeps the first only; its
column is no attribute, so that it stays null and a node that names it is refused. The columns of further relations
to the same target are taken for attributes. -/

namespace TreeStore

open Database Loader

def Entity.FirstTo (e : Entity) (r : Relation) : Prop := e.relations.find? (·.target.text = r.target.text) = some r

instance (e : Entity) (r : Relation) : Decidable (e.FirstTo r) := inferInstanceAs (Decidable (_ = _))

/-- What a node of an entity may carry: the attributes of the entity, and the columns of relations that are not the
first to their target. ASCII letters may differ in case. -/
def Entity.Accepts (e : Entity) (key : String) : Prop :=
  (∃ a ∈ e.attributes, Text.sameIgnoringCase a.name.text key = true) ∨
    ∃ r ∈ e.relations, ¬ e.FirstTo r ∧ Text.sameIgnoringCase r.column key = true

namespace Model.Compiles

variable {m : Model} (compiles : m.Compiles) {e : Entity} (he : e ∈ m.entities)
include compiles he

theorem hierarchyEntries_find? (child : String) :
    m.hierarchyEntries.find? (fun entry => entry.parent = e.name.text ∧ entry.child = child) =
      (e.relations.find? (·.target.text = child)).map fun r => ⟨e.name.text, r.target.text, r.name.text⟩ := by
  have own : (e.relations.map fun r => (⟨e.name.text, r.target.text, r.name.text⟩ : HierarchyEntry)).find?
      (fun entry => entry.parent = e.name.text ∧ entry.child = child) =
      (e.relations.find? (·.target.text = child)).map fun r => ⟨e.name.text, r.target.text, r.name.text⟩ := by
    rw [List.find?_map, Function.comp_def]
    simp
  -- Other entities have other names, so that what stands before and after makes no difference.
  have all : ∀ es : List Entity, (∀ f ∈ es, f ∈ m.entities) →
      (es.flatMap fun f => f.relations.map fun r => (⟨f.name.text, r.target.text, r.name.text⟩ : HierarchyEntry)).find?
        (fun entry => entry.parent = e.name.text ∧ entry.child = child) = if e ∈ es then
          (e.relations.find? (·.target.text = child)).map fun r => ⟨e.name.text, r.target.text, r.name.text⟩
        else none := by
    intro es inside
    induction es with
    | nil => rfl
    | cons f rest ih =>
      rw [List.flatMap_cons, List.find?_append, ih fun g mem => inside g (List.mem_cons_of_mem _ mem)]
      by_cases same : f.name.text = e.name.text
      · obtain rfl := compiles.wellNamed.entity_of_text (inside f List.mem_cons_self) he same
        rw [own, if_pos List.mem_cons_self]
        split
        · exact Option.or_self
        · exact Option.or_none
      · have other : (f.relations.map fun r => (⟨f.name.text, r.target.text, r.name.text⟩ : HierarchyEntry)).find?
            (fun entry => entry.parent = e.name.text ∧ entry.child = child) = none := by
          rw [List.find?_map, Function.comp_def]
          simp [same]
        have apart : e ≠ f := fun eq => same (eq ▸ rfl)
        rw [other, Option.none_or]
        simp [apart]
  exact (all m.entities fun _ mem => mem).trans (if_pos he)

theorem relation?_eq (child : String) : m.hierarchy.relation? e.name.text child =
    (e.relations.find? (·.target.text = child)).map (·.name.text) := by
  rw [Model.hierarchy, Hierarchy.relation?_ofEntries, compiles.hierarchyEntries_find? he, Option.map_map]
  rfl

/-- The hierarchy has the first relation to a target. -/
theorem mem_relationsOf {entry : HierarchyEntry} : entry ∈ m.hierarchy.relationsOf e.name.text ↔
    ∃ r ∈ e.relations, e.FirstTo r ∧ entry = ⟨e.name.text, r.target.text, r.name.text⟩ := by
  have entered : entry ∈ m.hierarchy.relationsOf e.name.text ↔
      m.hierarchy.relation? e.name.text entry.child = some entry.relation ∧ entry.parent = e.name.text := by
    rw [Hierarchy.relationsOf, List.mem_filter, Hierarchy.relation?_eq_some, decide_eq_true_eq]
    refine and_congr_left fun parent => ?_
    rw [← parent]
  rw [entered, compiles.relation?_eq he]
  constructor
  · rintro ⟨found, parent⟩
    obtain ⟨r, first, name⟩ := Option.map_eq_some_iff.1 found
    have target : r.target.text = entry.child := by simpa using List.find?_some first
    refine ⟨r, List.mem_of_find?_eq_some first, by rw [Entity.FirstTo, target]; exact first, ?_⟩
    rw [target, name, ← parent]
  · rintro ⟨r, _, first, rfl⟩
    exact ⟨by rw [first]; rfl, rfl⟩

theorem relation_column_unique {r s : Relation} (hr : r ∈ e.relations) (hs : s ∈ e.relations)
    (same : Text.sameIgnoringCase r.column s.column = true) : r = s := by
  rw [sameIgnoringCase_ascii (Ident.isValid_ascii (compiles.relation_valid he hr).2)
    (Ident.isValid_ascii (compiles.relation_valid he hs).2), sameName_iff, Relation.lower_column_inj] at same
  exact List.inj_on_of_nodup_map (compiles.relation_keys he) hr hs same

theorem relation_column_not_id {r : Relation} (hr : r ∈ e.relations) :
    Text.sameIgnoringCase r.column Schema.idColumn = false := by
  have lowerId : Text.lower Schema.idColumn = Schema.idColumn := by decide
  have ascii := Ident.isValid_ascii (compiles.relation_valid he hr).2
  rw [sameIgnoringCase_ascii ascii StoredTable.isAscii_idColumn, Bool.eq_false_iff, ne_eq, sameName_iff, lowerId]
  exact r.column_ne_id

/-- The column of a relation is taken for an attribute unless the relation is the first to its target. -/
theorem relation_isAttributeName {r : Relation} (hr : r ∈ e.relations) :
    m.hierarchy.isAttributeName e.name.text r.column = true ↔ ¬ e.FirstTo r := by
  have known : ((m.hierarchy.relationsOf e.name.text).map fun entry => Schema.contextColumn entry.relation).any
      (Text.sameIgnoringCase r.column ·) = true ↔ e.FirstTo r := by
    rw [List.any_map, List.any_eq_true]
    constructor
    · rintro ⟨entry, mem, same⟩
      obtain ⟨s, hs, first, rfl⟩ := (compiles.mem_relationsOf he).1 mem
      obtain rfl := compiles.relation_column_unique he hr hs same
      exact first
    · intro first
      exact ⟨_, (compiles.mem_relationsOf he).2 ⟨r, hr, first, rfl⟩, Text.sameIgnoringCase_self _⟩
  rw [Hierarchy.isAttributeName, compiles.relation_column_not_id he hr, ← known]
  simp

end Model.Compiles

variable {V : Type} {vs : ValueSystem V} {m : Model} {e : Entity}

/-! ### Nodes -/

theorem relation_stored {created : List Name} {r : Relation} (hr : r ∈ e.relations) :
    ∃ c ∈ (stored vs (Schema.entityTable created e)).columns, c.name = r.column := by
  obtain ⟨d, hd, name⟩ : ∃ d ∈ (Schema.entityTable created e).columns, d.name = r.column :=
    ⟨_, List.mem_append_right _ (List.mem_map.2 ⟨r, hr, rfl⟩), rfl⟩
  exact ⟨_, (mem_stored_columns vs).2 ⟨d, hd, rfl⟩, name⟩

section Compiled

variable (compiles : m.Compiles) (he : e ∈ m.entities)
include compiles he

/-- The attribute columns of an entity's table are those for what the entity accepts. -/
theorem hasAttribute_iff {created : List Name} {key : String} :
    (stored vs (Schema.entityTable created e)).HasAttribute m.hierarchy key ↔ e.Accepts key := by
  constructor
  · rintro ⟨c, hc, own, same⟩
    rcases entityTable_column hc with ⟨name, _⟩ | ⟨a, ha, name, _⟩ | ⟨r, hr, name⟩
    · rw [Hierarchy.isAttributeName, name, Text.sameIgnoringCase_self] at own
      cases own
    · exact .inl ⟨a, ha, name ▸ same⟩
    · rw [name] at own same
      exact .inr ⟨r, hr, (compiles.relation_isAttributeName he hr).1 own, same⟩
  · rintro (⟨a, ha, same⟩ | ⟨r, hr, further, same⟩)
    · obtain ⟨c, hc, name, _⟩ : ∃ c ∈ (stored vs (Schema.entityTable created e)).columns,
          c.name = a.name.text ∧ c.type = catalogType vs a.kind.columnType := attribute_column ha
      refine ⟨c, hc, ?_, name ▸ same⟩
      rw [name]
      exact compiles.attribute_isAttributeName he ha
    · obtain ⟨c, hc, name⟩ : ∃ c ∈ (stored vs (Schema.entityTable created e)).columns, c.name = r.column :=
        relation_stored hr
      refine ⟨c, hc, ?_, name ▸ same⟩
      rw [name]
      exact (compiles.relation_isAttributeName he hr).2 further

theorem fits_iff {created : List Name} {attributes : TextMap String} :
    (stored vs (Schema.entityTable created e)).Fits m.hierarchy attributes ↔ ∀ k ∈ attributes.keys, e.Accepts k :=
  forall₂_congr fun _ _ => hasAttribute_iff compiles he

/-- The column of a first relation is null in every row. -/
theorem Database.Consistent.relation_null {db : Database V} (consistent : Consistent vs m db) {r : Relation}
    (hr : r ∈ e.relations) (first : e.FirstTo r) : ∃ t, db.table? e.name.text = some t ∧
      (t.column? r.column).isSome = true ∧ ∀ row ∈ t.rows, t.cell row r.column = none := by
  obtain ⟨created, mem⟩ := compiles.entityTable_mem he
  obtain ⟨n, _, _, _, rows⟩ := consistent.entities _ mem rfl
  obtain ⟨c, hc, name⟩ : ∃ c ∈ (db.tableAt vs (Schema.entityTable created e)).columns, c.name = r.column :=
    relation_stored hr
  have found := consistent.table? compiles mem
  rw [show (Schema.entityTable created e).name = e.name.text from rfl] at found
  refine ⟨_, found, StoredTable.column?_isSome.2 ⟨c, hc, name ▸ sameName_self _⟩, fun row hrow => ?_⟩
  have lowerId : Text.lower Schema.idColumn = Schema.idColumn := by decide
  have notId : sameName c.name Schema.idColumn = false := by
    rw [Bool.eq_false_iff, ne_eq, sameName_iff, lowerId, name]
    exact r.column_ne_id
  have hidden : m.hierarchy.isAttributeName e.name.text c.name = false := by
    rw [name, Bool.eq_false_iff, ne_eq, compiles.relation_isAttributeName he hr, not_not]
    exact first
  rw [← name]
  exact rows.hides row hrow c hc notId hidden

end Compiled

section Nodes

variable {settings : LoadSettings} {enforce : Bool} {x : Trail} {xs : List Trail} {db db' : Database V}
  {report report' : LoadReport} {error : LoadError} (compiles : m.Compiles)
include compiles

/-- A node that is loaded carries only what its entity accepts. -/
theorem NodeLoaded.accepted (loaded : NodeLoaded vs m settings x db report db' report') (he : e ∈ m.entities)
    (type : e.name.text = x.node.type) : ∀ k ∈ x.node.attributes.keys, e.Accepts k := by
  cases loaded with
  | container container =>
    have empty : x.node.attributes.entries = [] := by simpa [Label.bears, TextMap.isEmpty] using container
    simp [TextMap.keys, empty]
  | bearing bears table fits castable upserted surrounded paired =>
    obtain ⟨f, hf, created, rfl⟩ := compiles.entity_kind table.mem table.kind
    obtain rfl := compiles.wellNamed.entity_of_text he hf (type.trans table.name.symm)
    exact (fits_iff compiles he).1 fits

theorem Loaded.accepted (loaded : Loaded vs m settings xs db report db' report') (mem : x ∈ xs) (he : e ∈ m.entities)
    (type : e.name.text = x.node.type) : ∀ k ∈ x.node.attributes.keys, e.Accepts k := by
  induction loaded with
  | nil db report => cases mem
  | cons lawful knows first others ih =>
    rcases List.mem_cons.1 mem with rfl | mem
    · exact first.accepted compiles he type
    · exact ih mem

omit compiles in
/-- A node is refused at its place. -/
theorem NodeRefused.at (refused : NodeRefused vs m enforce x db error db') : error.At x.path := by
  cases refused with
  | mk bears table refused =>
    cases refused with
    | unfit carried unknown => exact .misfit _
    | _ => exact .store _

/-- A node that carries what its entity does not accept is refused for that. -/
theorem NodeRefused.of_unaccepted (refused : NodeRefused vs m enforce x db error db') (he : e ∈ m.entities)
    (type : e.name.text = x.node.type) {k : String} (mem : k ∈ x.node.attributes.keys) (unaccepted : ¬ e.Accepts k) :
    ∃ k ∈ x.node.attributes.keys, ¬ e.Accepts k ∧ error = .misfit x.path (.notColumn k e.name.text) := by
  cases refused with
  | mk bears table refused =>
    obtain ⟨f, hf, created, rfl⟩ := compiles.entity_kind table.mem table.kind
    obtain rfl := compiles.wellNamed.entity_of_text he hf (type.trans table.name.symm)
    cases refused with
    | unfit carried unknown =>
    exact ⟨_, carried, fun accepted => unknown ((hasAttribute_iff compiles he).2 accepted), rfl⟩
    | unreadable fits bad => exact absurd ((fits_iff compiles he).1 fits k mem) unaccepted
    | exhausted fits castable new next reached => exact absurd ((fits_iff compiles he).1 fits k mem) unaccepted
    | dangling fits castable new next left asked broken =>
      exact absurd ((fits_iff compiles he).1 fits k mem) unaccepted

/-- A node that cannot be mapped carries what its entity does not accept. -/
theorem NodeRefused.misfit {path : NodePath} {why : Misfit}
    (refused : NodeRefused vs m enforce x db (.misfit path why) db') : x.path = path ∧ ∃ e ∈ m.entities,
      e.name.text = x.node.type ∧ ∃ k ∈ x.node.attributes.keys, ¬ e.Accepts k ∧ why = .notColumn k e.name.text := by
  cases refused with
  | mk bears table refused =>
    obtain ⟨e, he, created, rfl⟩ := compiles.entity_kind table.mem table.kind
    cases refused with
    | unfit carried unknown =>
      exact ⟨rfl, e, he, table.name, _, carried,
        fun accepted => unknown ((hasAttribute_iff compiles he).2 accepted), rfl⟩

end Nodes

/-! ### Loads -/

/-- Of two elements of a list one comes first, or they are the same. -/
theorem split_cases {α : Type} {xs xs' ys ys' : List α} {x y : α} (eq : xs ++ x :: ys = xs' ++ y :: ys') :
    x ∈ xs' ∨ x = y ∨ y ∈ xs := by
  rcases List.append_eq_append_iff.1 eq with ⟨between, rfl, rest⟩ | ⟨between, rfl, rest⟩
  · cases between with
    | nil => exact .inr (.inl (List.cons.inj rest).1)
    | cons z others =>
      obtain ⟨rfl, _⟩ := List.cons.inj rest
      exact .inl (by simp)
  · cases between with
    | nil => exact .inr (.inl (List.cons.inj rest).1.symm)
    | cons z others =>
      obtain ⟨rfl, _⟩ := List.cons.inj rest
      exact .inr (.inr (by simp))

section Loads

variable {enforce : Bool} {settings : LoadSettings} {t : Tree} {db db' : Database V}
  {result : Except LoadError LoadReport} (compiles : m.Compiles) (ends : LoadEnds vs m enforce settings t db result db')
include compiles ends

theorem LoadEnds.accepted {report : LoadReport} (done : result = .ok report) {x : Trail} (mem : x ∈ t.trails)
    (he : e ∈ m.entities) (type : e.name.text = x.node.type) : ∀ k ∈ x.node.attributes.keys, e.Accepts k := by
  cases ends with
  | violation bad => cases done
  | done checked loaded => exact loaded.accepted compiles mem he type
  | failed checked stopped => cases done

theorem LoadEnds.misfit {path : NodePath} {why : Misfit} (failed : result = .error (.misfit path why)) :
    ∃ x ∈ t.trails, x.path = path ∧ ∃ e ∈ m.entities, e.name.text = x.node.type ∧
      ∃ k ∈ x.node.attributes.keys, ¬ e.Accepts k ∧ why = .notColumn k e.name.text := by
  cases ends with
  | violation bad => cases failed
  | done checked loaded => cases failed
  | failed checked stopped =>
    cases failed
    obtain ⟨before, x, after, _, _, eq, _, refused⟩ := stopped.refused
    exact ⟨x, by rw [eq]; simp, refused.misfit compiles⟩

/-- A tree with a node that carries what its entity does not accept fails at the latest there. -/
theorem LoadEnds.unaccepted {before after : List Trail} {x : Trail} (split : t.trails = before ++ x :: after)
    (he : e ∈ m.entities) (type : e.name.text = x.node.type) {k : String} (mem : k ∈ x.node.attributes.keys)
    (unaccepted : ¬ e.Accepts k) :
    (∃ path v, result = .error (.violation path v)) ∨ (∃ y ∈ before, ∃ error, error.At y.path ∧ result = .error error) ∨
      ∃ k ∈ x.node.attributes.keys, ¬ e.Accepts k ∧ result = .error (.misfit x.path (.notColumn k e.name.text)) := by
  cases ends with
  | violation bad => exact .inl ⟨_, _, rfl⟩
  | done checked loaded =>
    have inside : x ∈ t.trails := by rw [split]; simp
    exact absurd (loaded.accepted compiles inside he type k mem) unaccepted
  | failed checked stopped =>
    obtain ⟨first, y, later, _, _, eq, loaded, refused⟩ := stopped.refused
    rcases split_cases (split.symm.trans eq) with done | rfl | early
    · exact absurd (loaded.accepted compiles done he type k mem) unaccepted
    · obtain ⟨k, mem, unaccepted, rfl⟩ := refused.of_unaccepted compiles he type mem unaccepted
      exact .inr (.inr ⟨k, mem, unaccepted, rfl⟩)
    · exact .inr (.inl ⟨y, early, _, refused.at, rfl⟩)

end Loads

/-- Whatever has been loaded, the column of a relation that is the first to its target is null. A load succeeds only if
its nodes carry nothing but what their entities accept, a node that carries more is refused for that, unless an earlier
node is, and a node is refused as not fitting the tables for no other reason. -/
theorem relation_columns (ideal : vs.Ideal) (enforce : Bool) {schema : Schema}
    (compiled : Schema.ofModel m = .ok schema) (calls : List LoadCall) (rooted : ∀ c ∈ calls, c.tree.RootedIn m) :
    let s := (LoadState.founded vs enforce schema).loads vs enforce calls
    (∀ e ∈ m.entities, ∀ r ∈ e.relations, e.FirstTo r → ∃ t, s.database.table? e.name.text = some t ∧
      (t.column? r.column).isSome = true ∧ ∀ row ∈ t.rows, t.cell row r.column = none) ∧
    ∀ c : LoadCall, c.tree.RootedIn m →
      (∀ report, (s.load vs enforce c).1 = .ok report → ∀ x ∈ c.tree.trails, ∀ e ∈ m.entities,
        e.name.text = x.node.type → ∀ k ∈ x.node.attributes.keys, e.Accepts k) ∧
      (∀ before x after, c.tree.trails = before ++ x :: after → ∀ e ∈ m.entities, e.name.text = x.node.type →
        ∀ k ∈ x.node.attributes.keys, ¬ e.Accepts k →
          (∃ path v, (s.load vs enforce c).1 = .error (.violation path v)) ∨
          (∃ y ∈ before, ∃ error, error.At y.path ∧ (s.load vs enforce c).1 = .error error) ∨
          ∃ k ∈ x.node.attributes.keys, ¬ e.Accepts k ∧
            (s.load vs enforce c).1 = .error (.misfit x.path (.notColumn k e.name.text))) ∧
      ∀ path why, (s.load vs enforce c).1 = .error (.misfit path why) → ∃ x ∈ c.tree.trails, x.path = path ∧
        ∃ e ∈ m.entities, e.name.text = x.node.type ∧
          ∃ k ∈ x.node.attributes.keys, ¬ e.Accepts k ∧ why = .notColumn k e.name.text := by
  obtain ⟨rfl, compiles⟩ := ofModel_ok.1 compiled
  have sound := LoadState.loads_sound enforce compiles ideal (LoadState.founded_sound enforce compiles ideal) rooted
  refine ⟨fun e he r hr first => sound.consistent.relation_null compiles he hr first, fun c root => ?_⟩
  have ends := (LoadState.load_ends enforce compiles ideal sound root).2
  refine ⟨fun report done x mem e he type => ends.accepted compiles done mem he type, ?_, ?_⟩
  · exact fun before x after split e he type k mem unaccepted => ends.unaccepted compiles split he type mem unaccepted
  · exact fun path why failed => ends.misfit compiles failed

namespace Sample

def tagged : LoadCall := ⟨0, {}, ⟨"Box", .ofList [("In_ID", "1"), ("size", "7")], []⟩⟩

def backward : LoadCall := ⟨0, {}, ⟨"Step", .ofList [("back_id", "5"), ("n", "a")], []⟩⟩

end Sample

/-- A box is not loaded if it names the column of its relation, which is null in the boxes that are there. -/
theorem relation_columns_box :
    let s := Sample.start.loads ColumnValue.system true [Sample.loading "7" "x"]
    (∃ t, s.database.table? "Box" = some t ∧ ∀ row ∈ t.rows, t.cell row "in_id" = none) ∧
      ∀ report, (s.load ColumnValue.system true Sample.tagged).1 ≠ .ok report := by
  obtain ⟨null, loads⟩ := relation_columns ColumnValue.system_ideal true Sample.boxes_compile [Sample.loading "7" "x"]
    (by simp [Sample.loading, Sample.box_rooted])
  obtain ⟨t, found, _, cells⟩ := null _ List.mem_cons_self _ List.mem_cons_self (by decide)
  refine ⟨⟨t, found, cells⟩, fun report done => ?_⟩
  have accepted := (loads Sample.tagged ⟨_, List.mem_cons_self, rfl⟩).1 report done _ List.mem_cons_self _
    List.mem_cons_self rfl "In_ID" (by decide)
  revert accepted
  unfold Entity.Accepts
  decide

/-- The column of a second relation to the same target is set like an attribute. -/
theorem further_relation_set : ∃ schema, Schema.ofModel Sample.walks = .ok schema ∧
    (∀ e ∈ Sample.walks.entities, "back_id" ∈ e.relations.map Relation.column) ∧
    let s := (LoadState.founded ColumnValue.system true schema).load ColumnValue.system true Sample.backward
    s.1 = .ok { rowsInserted := 1 } ∧
      ∃ t ∈ s.2.database.tables, t.name = "Step" ∧ ∃ row ∈ t.rows, (t.cell row "back_id").isSome = true :=
  ⟨Sample.walks.schema, Sample.walks_compile, by decide, by decide +kernel, by decide +kernel⟩

end TreeStore
