import TreeStore.Proofs.Load.Errors

/-! A load as a walk over the nodes of a tree, one after another. What the nodes above hand down is kept on a pile,
from which as much is taken off as the next node is higher up. A walk that fails has loaded all the nodes before the
one that fails, and does nothing about the nodes after it. -/

namespace TreeStore

open Loader

/-! ### The first nodes of a tree -/

namespace Tree

mutual

/-- The root of a tree and so many nodes below, from the top down. -/
def upTo (n : Nat) : Tree → Tree
  | ⟨type, attributes, children⟩ => ⟨type, attributes, upToBelow n children⟩

def upToBelow : Nat → List Tree → List Tree
  | _, [] => []
  | 0, _ :: _ => []
  | n + 1, c :: rest => upTo n c :: upToBelow (n + 1 - c.nodeCount) rest

end

@[simp] theorem upTo_type (n : Nat) (t : Tree) : (t.upTo n).type = t.type := by
  cases t
  rw [upTo]

mutual

theorem trailsAt_upTo (path : NodePath) (above : List Label) (n : Nat) : (t : Tree) →
    (t.upTo n).trailsAt path above = (t.trailsAt path above).take (n + 1)
  | ⟨type, attributes, children⟩ => by
    rw [upTo, trailsAt, trailsAt, List.take_succ_cons, trailsBelow_upTo]

theorem trailsBelow_upTo (path : NodePath) (above : List Label) (index n : Nat) : (ts : List Tree) →
    trailsBelow path above index (upToBelow n ts) = (trailsBelow path above index ts).take n
  | [] => by
    rw [upToBelow, trailsBelow, List.take_nil]
  | c :: rest => by
    cases n with
    | zero => rw [upToBelow, trailsBelow, List.take_zero]
    | succ n =>
      rw [upToBelow, trailsBelow, trailsBelow, List.take_append, length_trailsAt, upTo_type, trailsAt_upTo,
        trailsBelow_upTo]

end

/-- The nodes of a tree that is cut off are its first nodes, at the same places. -/
theorem trails_upTo (t : Tree) (n : Nat) : (t.upTo n).trails = t.trails.take (n + 1) := by
  rw [trails, trails, upTo_type, trailsAt_upTo]

end Tree

namespace Loader

variable {σ α β : Type}

/-! ### Walks -/

/-- What is handed down by a node: its type and id, if it has one, and the ids to be carried down. -/
abbrev Handed := Option (String × Int) × Context

section Walk

variable (store : Store σ) (h : Hierarchy) (settings : LoadSettings)

def lowest (handed : List Handed) : Handed := handed.head?.getD (none, .empty)

/-- Loads the next node, given what the last one and the nodes above it have handed down, the lowest first. -/
def walkNode (handed : List Handed) (x : Trail) : LoadM σ (List Handed) := do
  let handed := handed.drop (handed.length - x.above.length)
  let (id, context) ← visitNode store h settings x.path (lowest handed).1 (lowest handed).2 x.node.type
    x.node.attributes
  return (id.map (x.node.type, ·), context) :: handed

theorem walkNode_level {handed : List Handed} {x : Trail} (level : handed.length = x.above.length)
    (lower : List Handed) : walkNode store h settings (lower ++ handed) x = (do
      let (id, context) ← visitNode store h settings x.path (lowest handed).1 (lowest handed).2 x.node.type
        x.node.attributes
      return (id.map (x.node.type, ·), context) :: handed) := by
  have drop : (lower ++ handed).drop ((lower ++ handed).length - x.above.length) = handed := by
    rw [List.length_append, level, Nat.add_sub_cancel, List.drop_left]
  unfold walkNode
  rw [drop]

mutual

/-- Visiting a tree is a walk over its nodes, if what follows does not mind what they have handed down. -/
theorem walk_trailsAt {handed : List Handed} (path : NodePath) (above : List Label) (lower : List Handed)
    (next : List Handed → LoadM σ β) : (t : Tree) → (level : handed.length = above.length) →
    (ignores : ∀ lower, next (lower ++ handed) = next handed) →
    ((t.trailsAt path above).foldlM (walkNode store h settings) (lower ++ handed) >>= next) = (do
      visit store h settings path (lowest handed).1 (lowest handed).2 t
      next handed)
  | ⟨type, attributes, children⟩, level, ignores => by
    rw [Tree.trailsAt, List.foldlM_cons, walkNode_level store h settings level, visit]
    simp only [bind_assoc, pure_bind]
    refine congrArg _ (funext fun (id, context) => ?_)
    -- What the nodes below leave on the pile is taken off by whatever comes next.
    have ignores' : ∀ lower, next (lower ++ (id.map (type, ·), context) :: handed) = next handed := fun lower => by
      rw [List.append_cons, ignores]
    have below := walk_trailsBelow path (⟨type, attributes⟩ :: above) 0 [] next children (congrArg Nat.succ level)
      fun lower => (ignores' lower).trans (ignores' []).symm
    exact below.trans (congrArg _ (funext fun _ => ignores' []))

theorem walk_trailsBelow {last : Handed} {handed : List Handed} (path : NodePath) (above : List Label) (index : Nat)
    (lower : List Handed) (next : List Handed → LoadM σ β) : (ts : List Tree) →
    (level : (last :: handed).length = above.length) →
    (ignores : ∀ lower, next (lower ++ last :: handed) = next (last :: handed)) →
    ((Tree.trailsBelow path above index ts).foldlM (walkNode store h settings) (lower ++ last :: handed) >>= next) = (do
      visitChildren store h settings path last.1 last.2 index ts
      next (last :: handed))
  | [], _, ignores => by
    rw [Tree.trailsBelow, visitChildren, List.foldlM_nil, pure_bind, pure_bind, ignores]
  | c :: rest, level, ignores => by
    have others : ∀ lower, ((Tree.trailsBelow path above (index + 1) rest).foldlM (walkNode store h settings)
        (lower ++ last :: handed) >>= next) = _ := fun lower =>
      walk_trailsBelow path above (index + 1) lower next rest level ignores
    have first := walk_trailsAt (path.child c.type index) above lower
      (fun handed => (Tree.trailsBelow path above (index + 1) rest).foldlM (walkNode store h settings) handed >>= next)
      c level fun lower => (others lower).trans (others []).symm
    rw [Tree.trailsBelow, visitChildren, List.foldlM_append, bind_assoc, first, bind_assoc]
    exact congrArg _ (funext fun _ => others [])

end

theorem visit_walk (t : Tree) : visit store h settings ⟨t.type, []⟩ none .empty t = (do
    let _ ← t.trails.foldlM (walkNode store h settings) []
    return ()) := by
  have level : ([] : List Handed).length = ([] : List Label).length := rfl
  have walk := walk_trailsAt store h settings ⟨t.type, []⟩ [] [] (fun _ => pure ()) t level fun _ => rfl
  exact (bind_pure_unit).symm.trans walk.symm

theorem walkNode_visits (handed : List Handed) (x : Trail) (p : Progress σ) : ∃ parent context,
    (outcome (walkNode store h settings handed x) p).2 =
        (outcome (visitNode store h settings x.path parent context x.node.type x.node.attributes) p).2 ∧
      ∀ error, (outcome (walkNode store h settings handed x) p).1 = .error error →
        (outcome (visitNode store h settings x.path parent context x.node.type x.node.attributes) p).1 =
          .error error := by
  unfold walkNode
  dsimp only
  generalize lowest (handed.drop (handed.length - x.above.length)) = last
  refine ⟨last.1, last.2, ?_⟩
  rw [outcome_bind]
  rcases outcome (visitNode store h settings x.path last.1 last.2 x.node.type x.node.attributes) p with ⟨_ | found, q⟩
  · exact ⟨rfl, fun error failed => congrArg _ (Except.error.inj failed)⟩
  · exact ⟨rfl, fun error failed => nomatch failed⟩

end Walk

/-! ### Outcomes -/

section Outcomes

variable {f : β → α → LoadM σ β} {b : β} {p q : Progress σ}

/-- A walk that fails has passed some elements and fails at the next one. -/
theorem foldlM_fails {xs : List α} {e : LoadError} (failed : outcome (xs.foldlM f b) p = (.error e, q)) :
    ∃ before x after c p', xs = before ++ x :: after ∧ outcome (before.foldlM f b) p = (.ok c, p') ∧
      outcome (f c x) p' = (.error e, q) := by
  induction xs generalizing b p with
  | nil => cases failed
  | cons x rest ih =>
    rw [List.foldlM_cons, outcome_bind] at failed
    rcases first : outcome (f b x) p with ⟨e' | c, p'⟩
    · rw [first] at failed
      exact ⟨[], x, rest, b, p, rfl, rfl, first.trans failed⟩
    · rw [first] at failed
      obtain ⟨before, y, after, d, p'', rfl, passed, stopped⟩ := ih failed
      refine ⟨x :: before, y, after, d, p'', rfl, ?_, stopped⟩
      rw [List.foldlM_cons, outcome_bind_ok first, passed]

theorem foldlM_next {before : List α} {x : α} {c : β} (passed : outcome (before.foldlM f b) p = (.ok c, q)) :
    outcome ((before ++ [x]).foldlM f b) p = outcome (f c x) q := by
  rw [List.foldlM_append, outcome_bind_ok passed, List.foldlM_cons]
  simp only [List.foldlM_nil, bind_pure]

/-- What holds after every step holds after a walk, however it ends. -/
theorem foldlM_keeps {I : Progress σ → Prop} {xs : List α}
    (each : ∀ x ∈ xs, ∀ b p, I p → I (outcome (f b x) p).2) (holds : I p) : I (outcome (xs.foldlM f b) p).2 := by
  induction xs generalizing b p with
  | nil => exact holds
  | cons x rest ih =>
    have after := each x List.mem_cons_self b p holds
    rw [List.foldlM_cons, outcome_bind]
    rcases first : outcome (f b x) p with ⟨e | c, p'⟩
    · rw [first] at after
      exact after
    · rw [first] at after
      exact ih (fun y mem => each y (List.mem_cons_of_mem _ mem)) after

end Outcomes

/-- A load of a tree that has passed the check is a walk over its nodes. -/
theorem loadWith_walk (store : Store σ) {h : Hierarchy} {settings : LoadSettings} {t : Tree}
    (checked : t.check h settings.maxDepth = .ok ()) (p : Progress σ) :
    outcome (loadWith store h settings t) p =
      match outcome (t.trails.foldlM (walkNode store h settings) []) { p with report := {} } with
      | (.ok _, q) => (.ok q.report, q)
      | (.error e, q) => (.error e, q) := by
  unfold loadWith
  rw [checked]
  dsimp only
  rw [outcome_bind_ok (outcome_modify _ p), visit_walk, bind_assoc, outcome_bind]
  rcases outcome (t.trails.foldlM (walkNode store h settings) []) { p with report := {} } with ⟨_ | _, _⟩ <;> rfl

end Loader

end TreeStore
