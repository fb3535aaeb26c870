import TreeStore.Proofs.Load.Permuted
import TreeStore.Proofs.Load.Steps
import TreeStore.Proofs.Store.Applied

/-! The registry in a store and the one in memory: they take the same entries as new, and what is read from the store
answers as the one in memory does, since no answer depends on the order of entries. -/

namespace TreeStore

namespace Database

variable {V : Type} {vs : ValueSystem V} (ideal : vs.Ideal) (enforce : Bool)
include ideal

/-- A store whose registry starts out empty answers to registrations as a registry in memory does to entries. What is
read back agrees with the one in memory, and a relation stays, whatever is applied afterwards. So a tree is loaded
alike with either of them. -/
theorem registry_refines :
    (∀ (db : Database V) (es : List HierarchyEntry),
      db.table? Schema.registryTable = some (stored vs Schema.registry) →
      let (answers, after) := steps (Registry.register (store vs enforce)) es db
      answers = (steps Hierarchy.enter es .empty).1.map .ok ∧
      (∃ g, Registry.load (store vs enforce) after = (.ok g, after) ∧ g.Agrees (.ofEntries es) ∧
        ∀ parent child, g.relation? parent child =
          (es.find? fun e => e.parent = parent ∧ e.child = child).map (·.relation)) ∧
      ∀ stmts, let later := ((store vs enforce).apply stmts after).2
        ∃ g, Registry.load (store vs enforce) later = (.ok g, later) ∧
          g.Agrees (.ofEntries (es ++ stmts.filterMap (·.registration?))) ∧
          ∀ parent child relation, (Hierarchy.ofEntries es).relation? parent child = some relation →
            g.relation? parent child = some relation) ∧
    ∀ (m : Model) (s : Schema), Schema.ofModel m = .ok s →
      ∀ (settings : LoadSettings) (columns : ColumnCache) (t : Tree),
        let db := ((store vs enforce).apply s.statements {}).2
        Loader.run (Loader.load (store vs enforce) settings t) columns db =
          Loader.run (Loader.loadWith (store vs enforce) s.hierarchy settings t) columns db := by
  constructor
  · intro db es empty
    have found : db.table? Schema.registryTable = some (registryOf vs .empty) := empty
    have entered := enterAll_table? es found
    rw [register_steps ideal found]
    refine ⟨rfl, ?_, fun stmts => ?_⟩
    · obtain ⟨g, same, read⟩ := load_ok ideal entered enforce
      refine ⟨g, read, Hierarchy.agrees_of_perm same, fun parent child => ?_⟩
      rw [Hierarchy.relation?_perm same]
      exact Hierarchy.relation?_ofEntries es parent child
    · have applied := applied_registry ideal entered enforce stmts
      obtain ⟨g, same, read⟩ := load_ok ideal applied enforce
      refine ⟨g, read, Hierarchy.agrees_of_perm ?_, fun parent child relation known => ?_⟩
      · rw [Hierarchy.ofEntries, List.foldl_append]
        exact same
      · rw [Hierarchy.relation?_perm same]
        exact Hierarchy.relation?_foldl _ known
  · intro m s compiled settings columns t
    obtain ⟨rfl, compiles⟩ := ofModel_ok.1 compiled
    have applied := applied_schema vs compiles ideal enforce
    obtain ⟨g, same, read⟩ := load_ok ideal (withHierarchy_table? vs (m.dataTables.map (stored vs))
      (sequencesOf m.tables) m.hierarchy) enforce
    simp only [applied, m.schema_hierarchy]
    have loaded := Loader.outcome_load (p := { store := founded vs m, columns }) read settings t
    rw [Loader.loadWith_perm _ _ same] at loaded
    unfold Loader.run
    unfold Loader.outcome at loaded
    rw [loaded]
    rfl

end Database

namespace Sample

open Database

def pairs : List HierarchyEntry := [⟨"Box", "Item", "in"⟩, ⟨"Box", "Item", "on"⟩, ⟨"Item", "Box", "of"⟩]

def unregistered : Database ColumnValue := ⟨[stored ColumnValue.system Schema.registry], []⟩

end Sample

theorem Database.registry_refines_pairs :
    Sample.unregistered.table? Schema.registryTable = some (stored ColumnValue.system Schema.registry) ∧
    (steps (Registry.register (store ColumnValue.system true)) Sample.pairs Sample.unregistered).1 =
      [.ok true, .ok false, .ok true] ∧
    (∃ g, (Registry.load (store ColumnValue.system true)
        (steps (Registry.register (store ColumnValue.system true)) Sample.pairs Sample.unregistered).2).1 = .ok g ∧
      g.relation? "Box" "Item" = some "in") ∧
    Schema.ofModel Sample.boxes = .ok Sample.boxes.schema ∧
    Loader.run (Loader.load (store ColumnValue.system true) {} ⟨"Item", .empty, []⟩) .empty
        ((store ColumnValue.system true).apply Sample.boxes.schema.statements {}).2 =
      Loader.run (Loader.loadWith (store ColumnValue.system true) Sample.boxes.schema.hierarchy {}
        ⟨"Item", .empty, []⟩) .empty ((store ColumnValue.system true).apply Sample.boxes.schema.statements {}).2 := by
  have empty : Sample.unregistered.table? Schema.registryTable =
      some (stored ColumnValue.system Schema.registry) := rfl
  have entered : (steps Hierarchy.enter Sample.pairs .empty).1 = [true, false, true] := by decide +kernel
  obtain ⟨registers, loads⟩ := registry_refines ColumnValue.system_ideal true
  obtain ⟨answers, ⟨g, read, _, first⟩, _⟩ := registers Sample.unregistered Sample.pairs empty
  rw [entered] at answers
  exact ⟨empty, answers, ⟨g, congrArg Prod.fst read, (first "Box" "Item").trans (by decide +kernel)⟩,
    Sample.boxes_compile, loads Sample.boxes _ Sample.boxes_compile {} .empty _⟩

end TreeStore
