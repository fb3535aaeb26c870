import TreeStore.Proofs.Load.Errors
import TreeStore.Proofs.Load.Session
import TreeStore.Proofs.Load.Violations

/-! Trees that are rejected: a load fails with a violation exactly if the check does, and then it has asked the
store for the hierarchy and for nothing else. -/

namespace TreeStore

open Database Loader

variable {σ : Type} (store : Store σ)

/-- A store that writes down what it is asked. -/
def Store.logged : Store (σ × List Request) where
  answer r s :=
    let (result, s') := store.answer r s.1
    (result, s', s.2 ++ [r])

theorem Store.logged_answer (r : Request) (s : σ) (log : List Request) : store.logged.answer r (s, log) =
    ((store.answer r s).1, (store.answer r s).2, log ++ [r]) := rfl

theorem Registry.load_logged (s : σ) (log : List Request) : Registry.load store.logged (s, log) =
    ((Registry.load store s).1, (Registry.load store s).2, log ++ [.select Registry.selectAll]) := by
  unfold Registry.load
  rw [Store.logged_answer]
  rcases store.answer (.select Registry.selectAll) s with ⟨_ | _, _⟩ <;> rfl

theorem Registry.load_database {V : Type} (vs : ValueSystem V) (enforce : Bool) (db : Database V) :
    Registry.load (Database.store vs enforce) db = ((Registry.load (Database.store vs enforce) db).1, db) := by
  unfold Registry.load
  simp only [Database.store, Database.answer]
  rcases Database.select vs Registry.selectAll db with _ | _ <;> rfl

namespace Loader

variable {h : Hierarchy} {settings : LoadSettings} {t : Tree}

theorem loadWith_rejected {path : NodePath} {v : Violation} (bad : t.check h settings.maxDepth = .error (path, v))
    (p : Progress σ) : outcome (loadWith store h settings t) p = (.error (.violation path v), p) := by
  unfold loadWith
  rw [bad]
  rfl

theorem loadWith_throws (checked : t.check h settings.maxDepth = .ok ()) :
    Throws (fun e => ∃ x ∈ t.trails, e.At x.path) (loadWith store h settings t) := by
  unfold loadWith
  rw [checked]
  exact .bind (.update _) fun _ => .bind (visit_throws store h settings [] t _ _ _) fun _ =>
    .bind .read fun _ => .pure _

/-- A load fails with a violation exactly if the check finds it. -/
theorem loadWith_violation {path : NodePath} {v : Violation} (p : Progress σ) :
    (outcome (loadWith store h settings t) p).1 = .error (.violation path v) ↔
      t.check h settings.maxDepth = .error (path, v) := by
  constructor
  · intro failed
    cases checked : t.check h settings.maxDepth with
    | ok =>
      obtain ⟨x, _, place⟩ := loadWith_throws store checked p _ failed
      cases place
    | error found =>
      obtain ⟨path', v'⟩ := found
      rw [loadWith_rejected store checked] at failed
      cases failed
      rfl
  · intro bad
    rw [loadWith_rejected store bad]

theorem run_load {s s' : σ} (read : Registry.load store s = (.ok h, s')) (columns : ColumnCache) :
    run (load store settings t) columns s =
      let (result, p) := outcome (loadWith store h settings t) { store := s', columns }
      (result, p.columns, p.store) := by
  have opened : outcome (load store settings t) { store := s, columns } = _ := outcome_load read settings t
  unfold run
  unfold outcome at opened ⊢
  rw [opened]
  rfl

theorem run_load_error {e : RegistryError} {s s' : σ} (read : Registry.load store s = (.error e, s'))
    (columns : ColumnCache) : run (load store settings t) columns s = (.error (.registry e), columns, s') := by
  have ended : outcome (load store settings t) { store := s, columns } = _ := outcome_load_error read settings t
  unfold run
  unfold outcome at ended
  rw [ended]

theorem run_rejected {s s' : σ} (read : Registry.load store s = (.ok h, s')) (columns : ColumnCache) {path : NodePath}
    {v : Violation} (bad : t.check h settings.maxDepth = .error (path, v)) :
    run (load store settings t) columns s = (.error (.violation path v), columns, s') := by
  rw [run_load store read, loadWith_rejected store bad]

end Loader

/-- The check accepts the conforming trees and no others; of others it names the first node that breaks a condition.
A load is rejected exactly if its tree is not accepted, before anything is asked of the store but the hierarchy. -/
theorem check_exact (h : Hierarchy) (settings : LoadSettings) (t : Tree) :
    (t.check h settings.maxDepth = .ok () ↔ t.Conforms h settings.maxDepth) ∧
    (∀ path v, t.check h settings.maxDepth = .error (path, v) ↔ ∃ before x after, t.trails = before ++ x :: after ∧
      (∀ y ∈ before, y.Conforms h settings.maxDepth) ∧ x.Violates h settings.maxDepth v ∧ x.path = path) ∧
    (∀ x ∈ t.trails, (∃ u, t.follow? x.path.steps = some u ∧ u.label = x.node) ∧
      x.path.text = " > ".intercalate (t.type :: x.path.steps.map fun s => s.1 ++ "[" ++ toString s.2 ++ "]")) ∧
    (∀ {σ : Type} (store : Store σ) (s s' : σ) (columns : ColumnCache), Registry.load store s = (.ok h, s') →
      ∀ path v, ((run (load store settings t) columns s).1 = .error (.violation path v) ↔
          t.check h settings.maxDepth = .error (path, v)) ∧
        (t.check h settings.maxDepth = .error (path, v) →
          run (load store settings t) columns s = (.error (.violation path v), columns, s') ∧
          run (load store.logged settings t) columns (s, []) =
            (.error (.violation path v), columns, s', [.select Registry.selectAll]))) ∧
    ∀ {V : Type} (vs : ValueSystem V) (enforce : Bool) (db : Database V) (columns : ColumnCache),
      (Registry.load (Database.store vs enforce) db).1 = .ok h →
      ∀ path v, t.check h settings.maxDepth = .error (path, v) →
        run (load (Database.store vs enforce) settings t) columns db = (.error (.violation path v), columns, db) := by
  refine ⟨Tree.check_eq_ok, fun _ _ => Tree.check_eq_error, fun x mem => ?_, ?_, ?_⟩
  · obtain ⟨root, found⟩ := Tree.trails_follow mem
    exact ⟨found, by rw [← root]; rfl⟩
  · intro σ store s s' columns read path v
    refine ⟨?_, fun bad => ⟨run_rejected store read columns bad, ?_⟩⟩
    · rw [run_load store read]
      exact loadWith_violation store _
    · have readLogged : Registry.load store.logged (s, []) = (.ok h, s', [.select Registry.selectAll]) := by
        rw [Registry.load_logged, read]
        rfl
      exact run_rejected store.logged readLogged columns bad
  · intro V vs enforce db columns read path v bad
    have unchanged := Registry.load_database vs enforce db
    rw [read] at unchanged
    exact run_rejected (Database.store vs enforce) unchanged columns bad

namespace Sample

def nested : Tree := ⟨"Box", .ofList [("size", "7")], [⟨"Item", .ofList [("n", "x")], [⟨"Box", .empty, []⟩]⟩]⟩

end Sample

theorem check_exact_nested :
    run (load (Database.store ColumnValue.system true) {} Sample.nested) .empty Sample.start.database =
      (.error (.violation ⟨"Box", [("Item", 0), ("Box", 0)]⟩ (.notChild "Box" "Item" [])), .empty,
        Sample.start.database) :=
  (check_exact Sample.boxes.hierarchy {} Sample.nested).2.2.2.2 ColumnValue.system true Sample.start.database .empty
    (by decide +kernel) _ _ (by decide +kernel)

end TreeStore
