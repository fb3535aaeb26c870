import TreeStore.Proofs.Infer.Visit
import TreeStore.Proofs.Load.Conformity
import TreeStore.Proofs.Load.Violations

/-! Loading what has been inferred. The tree conforms to the model that is inferred with it, unless the model does not
compile, and so it passes the check and is loaded. -/

namespace TreeStore

open Database Loader

/-! ### Facts on ways up -/

inductive Trail.States (x : Trail) : Fact → Prop
  | entity : States x (.entity x.node.type)
  | key {k : String} (mem : k ∈ x.node.attributes.keys) : States x (.key x.node.type k)
  | child {p : Label} (parent : x.above.head? = some p) : States x (.child p.type x.node.type)

namespace Tree

variable {x : Trail} {f : Fact}

mutual

theorem trailsAt_states {path : NodePath} {above : List Label} : (t : Tree) → (mem : x ∈ t.trailsAt path above) →
    (states : x.States f) → t.States f ∨ ∃ p, above.head? = some p ∧ f = .child p.type t.type
  | ⟨type, attributes, children⟩, mem, states => by
    rcases List.mem_cons.1 mem with rfl | mem
    · cases states with
      | entity => exact .inl (.entity _)
      | key mem => exact .inl (.key mem)
      | child parent => exact .inr ⟨_, parent, rfl⟩
    · obtain ⟨c, hc, states | rfl⟩ := trailsBelow_states children mem states
      · exact .inl (.inside hc states)
      · exact .inl (.child hc)

theorem trailsBelow_states {path : NodePath} {parent : Label} {above : List Label} {index : Nat} : (ts : List Tree) →
    (mem : x ∈ trailsBelow path (parent :: above) index ts) → (states : x.States f) →
    ∃ c ∈ ts, c.States f ∨ f = .child parent.type c.type
  | [], mem, _ => nomatch mem
  | c :: rest, mem, states => by
    rcases List.mem_append.1 mem with mem | mem
    · rcases trailsAt_states c mem states with states | ⟨p, head, rfl⟩
      · exact ⟨c, List.mem_cons_self, .inl states⟩
      · cases head
        exact ⟨c, List.mem_cons_self, .inr rfl⟩
    · obtain ⟨d, hd, found⟩ := trailsBelow_states rest mem states
      exact ⟨d, List.mem_cons_of_mem _ hd, found⟩

end

theorem trails_states {t : Tree} (mem : x ∈ t.trails) (states : x.States f) : t.States f := by
  rcases trailsAt_states t mem states with states | ⟨p, head, _⟩
  · exact states
  · cases head

end Tree

/-! ### Conforming to what is declared -/

section Conforming

variable {m : Model} {t : Tree} (declared : ∀ f, t.States f → Declared m.entities f)
include declared

theorem Tree.rooted_of_declared : t.RootedIn m := Infer.declared_entity.1 (declared _ (.entity t))

theorem Trail.registered_of_declared {x : Trail} (mem : x ∈ t.trails) : x.Registered m.hierarchy := by
  intro p parent
  obtain ⟨e, he, name, r, hr, target⟩ := Infer.declared_child.1 (declared _ (Tree.trails_states mem (.child parent)))
  rw [Hierarchy.relation?_isSome]
  apply Hierarchy.has_ofEntries.2
  refine ⟨_, Model.mem_hierarchyEntries.2 ⟨e, he, r, hr, rfl⟩, ?_⟩
  simp [HierarchyEntry.pair, name, target]

variable (compiles : m.Compiles)
include compiles

theorem Trail.attribute_of_declared {x : Trail} (mem : x ∈ t.trails) {e : Entity} (he : e ∈ m.entities)
    (name : e.name.text = x.node.type) {k : String} (hk : k ∈ x.node.attributes.keys) :
    ∃ a ∈ e.attributes, a.name.text = k := by
  obtain ⟨f, hf, same, own⟩ := Infer.declared_key.1 (declared _ (Tree.trails_states mem (.key hk)))
  obtain rfl := compiles.wellNamed.entity_of_text hf he (same.trans name.symm)
  exact own

theorem Tree.conforms_of_declared {maxDepth : Nat} (depth : t.depth ≤ maxDepth) : t.Conforms m.hierarchy maxDepth := by
  rw [Tree.conforms_iff]
  intro x mem
  obtain ⟨e, he, name⟩ := Infer.declared_entity.1 (declared _ (Tree.trails_states mem .entity))
  have own := fun k => x.attribute_of_declared declared compiles mem he name (k := k)
  refine ⟨x.registered_of_declared declared mem, t.trails_depth.2 depth x mem, ?_, fun k hk => ?_, ?_⟩
  · rw [← name]
    exact compiles.entity_valid he
  · obtain ⟨a, ha, rfl⟩ := own k hk
    exact (compiles.attribute_checked he ha).1
  · -- Attributes with the same lower case would have been refused as duplicates.
    refine x.node.attributes.keys_nodup.imp_of_mem fun {k k'} hk hk' different same => different ?_
    obtain ⟨a, ha, rfl⟩ := own k hk
    obtain ⟨b, hb, rfl⟩ := own k' hk'
    rw [List.inj_on_of_nodup_map (compiles.attribute_keys he) ha hb same]

theorem Tree.declares_of_declared : t.Declares m := by
  intro x mem e he name k hk
  obtain ⟨a, ha, rfl⟩ := x.attribute_of_declared declared compiles mem he name hk
  exact ⟨a, ha, Text.sameIgnoringCase_self _⟩

end Conforming

/-- Texts can always be read. -/
theorem Tree.readable_of_texts {V : Type} {vs : ValueSystem V} (ideal : vs.Ideal) {m : Model}
    (texts : ∀ e ∈ m.entities, ∀ a ∈ e.attributes, a.kind = .text) (t : Tree) : t.Readable vs m := by
  intro x _ e he _ entry _ a ha _
  obtain ⟨v, read, _⟩ := ideal.texts entry.2
  rw [texts e he a ha, show ScalarKind.text.columnType = "VARCHAR" from rfl, read]
  rfl

/-! ### Loading -/

/-- What is inferred goes together, unless it does not compile: the schema of the model is applied without failures,
the tree passes the check, and it is loaded, with every node counted once, as long as there are ids to give out. -/
theorem inferred_loads {V : Type} {vs : ValueSystem V} (ideal : vs.Ideal) (enforce : Bool) {root : String}
    {v : Json.Value} {m : Model} {t : Tree} (inferred : Infer.ofValue root v = .ok (m, t)) {schema : Schema}
    (compiled : Schema.ofModel m = .ok schema) :
    ((store vs enforce).apply schema.statements {}).1.isClean = true ∧
      (∀ maxDepth, t.depth ≤ maxDepth → t.check schema.hierarchy maxDepth = .ok ()) ∧
      ∀ loader settings, t.depth ≤ settings.maxDepth →
        (∃ report, ((LoadState.founded vs enforce schema).load vs enforce ⟨loader, settings, t⟩).1 = .ok report ∧
          report.rowsInserted + report.rowsReused + report.containers = t.nodeCount) ∨
        endOfSequence ≤ 1 + (t.nodeCount : Int) := by
  obtain ⟨rfl, compiles⟩ := ofModel_ok.1 compiled
  obtain ⟨steps, exact⟩ := Infer.ofValue_exact inferred
  have declared : ∀ f, t.States f → Declared m.entities f := fun f => (exact f).2
  have applied := applied_schema vs compiles ideal enforce
  have checked : ∀ maxDepth, t.depth ≤ maxDepth → t.check m.hierarchy maxDepth = .ok () := fun maxDepth depth =>
    Tree.check_eq_ok.2 (Tree.conforms_of_declared declared compiles depth)
  rw [m.schema_hierarchy]
  refine ⟨by rw [applied]; rfl, checked, fun loader settings depth => ?_⟩
  have start := LoadState.founded_sound enforce compiles ideal
  have ends := (LoadState.load_ends enforce compiles ideal start (c := ⟨loader, settings, t⟩)
    (Tree.rooted_of_declared declared)).2
  have first : (LoadState.founded vs enforce m.schema).database.Below 1 := by
    rw [LoadState.founded_database enforce compiles ideal]
    exact founded_below
  have texts := Infer.Step.texts steps fun _ mem => nomatch mem
  have loads := (ends.conforming compiles (checked _ depth) (Tree.declares_of_declared declared compiles) first).2
    (Tree.readable_of_texts ideal texts t)
  refine loads.imp_left fun ⟨report, ok⟩ => ⟨report, ok, ?_⟩
  rw [ok] at ends
  cases ends with
  | done _ loaded =>
    have counted := loaded.nodes
    rw [t.length_trails] at counted
    simpa [LoadReport.nodes] using counted

namespace Sample

def boxedJson : Json.Value :=
  .object [("", .int 1), ("Box", .list [.object [("Box", .object [("size", .text "7")])], .null, .object []]),
    ("open", .flag true)]

theorem box_notBlank : Text.isBlank "Box" = false := by decide

theorem size_notBlank : Text.isBlank "size" = false := by decide

def boxedModel : Model where
  name := none
  entities := [⟨⟨"Shop", by decide⟩, [⟨⟨"open", by decide⟩, .text⟩],
      [Infer.relationTo ⟨"Box", box_notBlank⟩]⟩,
    ⟨⟨"Box", box_notBlank⟩, [⟨⟨"size", size_notBlank⟩, .text⟩], [Infer.relationTo ⟨"Box", box_notBlank⟩]⟩]

def boxedTree : Tree :=
  ⟨"Shop", .ofList [("open", "true")],
    [⟨"Box", .empty, [⟨"Box", .ofList [("size", "7")], []⟩]⟩, ⟨"Box", .empty, []⟩]⟩

theorem boxed_inferred : Infer.ofValue "Shop" boxedJson = .ok (boxedModel, boxedTree) := rfl

theorem boxedModel_compiles : Schema.ofModel boxedModel = .ok boxedModel.schema := by decide +kernel

end Sample

/-- Two of the four nodes get rows, and two hold their children together. -/
theorem inferred_loads_boxed :
    ∃ report, ((LoadState.founded ColumnValue.system true Sample.boxedModel.schema).load ColumnValue.system true
      ⟨0, {}, Sample.boxedTree⟩).1 = .ok report ∧ report.rowsInserted + report.rowsReused + report.containers = 4 := by
  obtain ⟨_, _, loads⟩ :=
    inferred_loads ColumnValue.system_ideal true Sample.boxed_inferred Sample.boxedModel_compiles
  exact (loads 0 {} (by decide +kernel)).resolve_right (by decide +kernel)

end TreeStore
