import Mathlib.Data.List.Nodup
import Mathlib.Data.List.Perm.Subperm
import Mathlib.Logic.Relation
import TreeStore.Proofs.Schema.CreationOrder

/-! When there is an order of creation with all targets before their sources: just if no way along the relations, those of
an entity to itself aside, comes back to where it began. The walk through the relations finds an order if there is one. -/

namespace TreeStore.Model

def Leads (m : Model) (source target : Entity) : Prop :=
  source ∈ m.entities ∧ target ∈ m.entities ∧ ∃ r ∈ source.relations, r.target = target.name

def LeadsOut (m : Model) (source target : Entity) : Prop := m.Leads source target ∧ source.name ≠ target.name

/-- The relations lead in no circle, apart from those of an entity to itself. -/
def Acyclic (m : Model) : Prop := ∀ e, ¬ Relation.TransGen m.LeadsOut e e

theorem refersTo_iff {source target : Entity} : refersTo source target = true ↔
    source.name ≠ target.name ∧ ∃ r ∈ source.relations, r.target = target.name := by
  simp [refersTo]

theorem mem_referrers {m : Model} {source target : Entity} (mem : target ∈ m.entities) :
    source ∈ m.referrers target ↔ m.LeadsOut source target := by
  simp only [referrers, List.mem_filter, refersTo_iff, LeadsOut, Leads, mem, true_and]
  tauto

theorem isTargetsFirst_iff {es : List Entity} :
    isTargetsFirst es = true ↔ es.Pairwise fun e f => refersTo e f = false := by
  induction es with
  | nil => simp [isTargetsFirst]
  | cons e rest ih => simp [isTargetsFirst, ih]

/-! ### Orders with targets first -/

variable {m : Model}

/-- Along relations one comes to entities that stand further in front. -/
theorem idxOf_lt {order : List Entity} (first : isTargetsFirst order = true) (all : ∀ e ∈ m.entities, e ∈ order)
    {e f : Entity} (leads : Relation.TransGen m.LeadsOut e f) : order.idxOf f < order.idxOf e := by
  have step : ∀ {e f}, m.LeadsOut e f → order.idxOf f < order.idxOf e := by
    intro e f ⟨⟨he, hf, related⟩, other⟩
    have heIndex := List.idxOf_lt_length_of_mem (all e he)
    have hfIndex := List.idxOf_lt_length_of_mem (all f hf)
    by_contra notBefore
    rcases Nat.lt_or_eq_of_le (Nat.le_of_not_lt notBefore) with before | same
    · have apart := List.pairwise_iff_getElem.1 (isTargetsFirst_iff.1 first) _ _ heIndex hfIndex before
      rw [List.getElem_idxOf, List.getElem_idxOf] at apart
      exact absurd (refersTo_iff.2 ⟨other, related⟩) (Bool.eq_false_iff.1 apart)
    · have eq : e = f := by
        rw [← List.getElem_idxOf heIndex, ← List.getElem_idxOf hfIndex]
        simp only [same]
      exact other (congrArg (·.name) eq)
  induction leads with
  | single edge => exact step edge
  | tail _ edge ih => exact Nat.lt_trans (step edge) ih

theorem acyclic_of_targetsFirst {order : List Entity} (first : isTargetsFirst order = true)
    (all : ∀ e ∈ m.entities, e ∈ order) : m.Acyclic :=
  fun _ circle => Nat.lt_irrefl _ (idxOf_lt first all circle)

/-! ### The walk -/

namespace Walk

/-- What has been left stands in an order with targets first, together with all that refers to it. -/
structure Sound (m : Model) (w : Walk) : Prop where
  distinct : w.seen.Nodup
  known : ∀ n ∈ w.seen, n ∈ m.entities.map (·.name)
  left : ∀ e ∈ w.left, e ∈ m.entities ∧ e.name ∈ w.seen
  targetsFirst : w.left.Pairwise fun e f => refersTo e f = false
  closed : ∀ e ∈ w.left, ∀ f ∈ m.referrers e, f ∈ w.left

/-- Whatever has been seen has been left again, or is one of some entities that are still open. -/
def LeftBut (w : Walk) (opened : Entity → Prop) : Prop := ∀ n ∈ w.seen, ∃ e, e.name = n ∧ (e ∈ w.left ∨ opened e)

theorem Sound.length_le {w : Walk} (sound : w.Sound m) : w.seen.length ≤ m.entities.length := by
  have sub := (List.Nodup.subperm sound.distinct sound.known).length_le
  rwa [List.length_map] at sub

theorem sound_nothing : Sound m {} where
  distinct := .nil
  known := by simp
  left := by simp
  targetsFirst := .nil
  closed := by simp

theorem Sound.enter {w : Walk} (sound : w.Sound m) {e : Entity} (mem : e ∈ m.entities) (new : e.name ∉ w.seen) :
    Sound m { w with seen := e.name :: w.seen } where
  distinct := List.nodup_cons.2 ⟨new, sound.distinct⟩
  known := List.forall_mem_cons.2 ⟨List.mem_map_of_mem mem, sound.known⟩
  left := fun f hf => ⟨(sound.left f hf).1, List.mem_cons_of_mem _ (sound.left f hf).2⟩
  targetsFirst := sound.targetsFirst
  closed := sound.closed

/-- An entity is left when all that refers to it has been left. -/
theorem Sound.leave {w : Walk} (sound : w.Sound m) {e : Entity} (mem : e ∈ m.entities) (seen : e.name ∈ w.seen)
    (unleft : e ∉ w.left) (below : ∀ f ∈ m.referrers e, f ∈ w.left) : Sound m { w with left := e :: w.left } where
  distinct := sound.distinct
  known := sound.known
  left := List.forall_mem_cons.2 ⟨⟨mem, seen⟩, sound.left⟩
  targetsFirst := by
    refine List.pairwise_cons.2 ⟨fun f hf => Bool.eq_false_iff.2 fun refers => unleft ?_, sound.targetsFirst⟩
    exact sound.closed f hf e (List.mem_filter.2 ⟨mem, refers⟩)
  closed := List.forall_mem_cons.2 ⟨fun f hf => List.mem_cons_of_mem _ (below f hf),
    fun f hf g hg => List.mem_cons_of_mem _ (sound.closed f hf g hg)⟩

namespace GoesOn

variable {w w' : Walk} (on : GoesOn m w w')
include on

theorem left_subset {e : Entity} (mem : e ∈ w.left) : e ∈ w'.left := by
  obtain ⟨_, left, _⟩ := on
  exact left ▸ List.mem_append_right _ mem

theorem length_le : w.seen.length ≤ w'.seen.length := by
  obtain ⟨_, _, seen, _⟩ := on
  rw [seen.length_eq, List.length_append]
  omega

theorem leftBut {opened : Entity → Prop} (before : w.LeftBut opened) : w'.LeftBut opened := by
  obtain ⟨more, left, seen, _⟩ := on
  intro n hn
  rcases List.mem_append.1 (seen.mem_iff.1 hn) with new | old
  · obtain ⟨e, he, rfl⟩ := List.mem_map.1 new
    exact ⟨e, rfl, .inl (left ▸ List.mem_append_left _ he)⟩
  · obtain ⟨e, rfl, there⟩ := before n old
    exact ⟨e, rfl, there.imp_left fun he => left ▸ List.mem_append_right _ he⟩

/-- What was open before stays open. -/
theorem not_left {e : Entity} (distinct : w.seen.Nodup) (seen : e.name ∈ w.seen) (unleft : e ∉ w.left) :
    e ∉ w'.left := by
  obtain ⟨more, left, listed, _, nodup⟩ := on
  rw [left, List.mem_append, not_or]
  refine ⟨fun new => ?_, unleft⟩
  have apart := List.nodup_append.1 (listed.nodup_iff.1 (nodup distinct))
  exact apart.2.2 _ (List.mem_map_of_mem new) _ seen rfl

end GoesOn

end Walk

open Walk

/-- Walks from several entities leave all of them, if each walk leaves where it began. What is open stays the same. -/
theorem walks_sound {steps : Nat} {opened : Entity → Prop}
    (step : ∀ {w e}, e ∈ m.entities → w.Sound m → w.LeftBut (Relation.TransGen m.LeadsOut e) →
      m.entities.length < steps + w.seen.length → (m.walk steps w e).Sound m ∧ e ∈ (m.walk steps w e).left)
    (es : List Entity) (each : ∀ e ∈ es, e ∈ m.entities ∧ ∀ f, opened f → Relation.TransGen m.LeadsOut e f)
    {w : Walk} (sound : w.Sound m) (left : w.LeftBut opened) (enough : m.entities.length < steps + w.seen.length) :
    (es.foldl (m.walk steps) w).Sound m ∧ ∀ e ∈ es, e ∈ (es.foldl (m.walk steps) w).left := by
  induction es generalizing w with
  | nil => exact ⟨sound, by simp⟩
  | cons e rest ih =>
    obtain ⟨⟨known, leads⟩, others⟩ := List.forall_mem_cons.1 each
    obtain ⟨sound', leaves⟩ := step known sound
      (fun n hn => (left n hn).imp fun f found => found.imp_right (·.imp_right (leads f))) enough
    have on := m.walk_goesOn steps w known
    have later := GoesOn.foldl (m := m) (f := m.walk steps) rest
      (fun w f hf => m.walk_goesOn steps w (others f hf).1) (m.walk steps w e)
    have grown := on.length_le
    obtain ⟨soundEnd, leavesEnd⟩ := ih others sound' (on.leftBut left) (by omega)
    exact ⟨soundEnd, List.forall_mem_cons.2 ⟨later.left_subset leaves, leavesEnd⟩⟩

section Acyclic

variable (acyclic : m.Acyclic) (names : (m.entities.map (·.name)).Nodup)
include acyclic names

/-- A walk from an entity leaves it, if all that is open lies behind it, and if there are enough steps to see what has
not been seen yet. -/
theorem walk_sound (steps : Nat) {w : Walk} {e : Entity} (mem : e ∈ m.entities) (sound : w.Sound m)
    (left : w.LeftBut (Relation.TransGen m.LeadsOut e)) (enough : m.entities.length < steps + w.seen.length) :
    (m.walk steps w e).Sound m ∧ e ∈ (m.walk steps w e).left := by
  induction steps generalizing w e with
  | zero =>
    have most := sound.length_le
    omega
  | succ steps ih =>
    rw [walk]
    split
    · next old =>
      refine ⟨sound, ?_⟩
      obtain ⟨f, same, there | circle⟩ := left e.name (by simpa using old)
      · exact List.inj_on_of_nodup_map names (sound.left f there).1 mem same ▸ there
      · -- An open entity that is met again has led back to itself.
        obtain ⟨_, _, ⟨_, known, _⟩, _⟩ := Relation.TransGen.tail'_iff.1 circle
        obtain rfl := List.inj_on_of_nodup_map names known mem same
        exact absurd circle (acyclic f)
    · next new =>
      have new : e.name ∉ w.seen := by simpa using new
      have entered := sound.enter mem new
      have nowOpen : Walk.LeftBut { w with seen := e.name :: w.seen } (Relation.ReflTransGen m.LeadsOut e) :=
        List.forall_mem_cons.2 ⟨⟨e, rfl, .inr .refl⟩, fun n hn =>
          (left n hn).imp fun f found => found.imp_right (·.imp_right Relation.TransGen.to_reflTransGen)⟩
      have refer : ∀ f ∈ m.referrers e, f ∈ m.entities ∧
          ∀ g, Relation.ReflTransGen m.LeadsOut e g → Relation.TransGen m.LeadsOut f g := fun f hf =>
        ⟨(List.mem_filter.1 hf).1, fun _ => Relation.TransGen.head' ((mem_referrers mem).1 hf)⟩
      obtain ⟨soundEnd, leaves⟩ := walks_sound ih (m.referrers e) refer entered nowOpen
        (by rw [List.length_cons]; omega)
      have on := GoesOn.foldl (m := m) (f := m.walk steps) (m.referrers e)
        (fun w f hf => m.walk_goesOn steps w (refer f hf).1) { w with seen := e.name :: w.seen }
      have still := on.not_left entered.distinct List.mem_cons_self fun there => new (sound.left e there).2
      exact ⟨soundEnd.leave mem (on.seen_subset List.mem_cons_self) still leaves, List.mem_cons_self⟩

theorem walkOrder_targetsFirst : isTargetsFirst m.walkOrder = true := by
  have nothingOpen : Walk.LeftBut {} fun _ => False := by simp [LeftBut]
  have walked := walks_sound (walk_sound acyclic names (m.entities.length + 1)) m.entities
    (fun e he => ⟨he, fun _ => False.elim⟩) sound_nothing nothingOpen (by omega)
  exact isTargetsFirst_iff.2 walked.1.targetsFirst

end Acyclic

/-- The walk finds an order with targets first just if the relations lead in no circle. -/
theorem isTargetsFirst_walkOrder (names : (m.entities.map (·.name)).Nodup) :
    isTargetsFirst m.walkOrder = true ↔ m.Acyclic :=
  ⟨fun first => acyclic_of_targetsFirst first fun _ => (walkOrder_perm names).mem_iff.2,
    fun acyclic => walkOrder_targetsFirst acyclic names⟩

/-- What a topological sort of the entities by their relations is asked for: all of them with targets first, and nothing if
the relations lead in a circle. -/
structure Sorts (m : Model) (sorted? : Option (List Entity)) : Prop where
  acyclic : m.Acyclic → ∃ order, sorted? = some order ∧ order.Perm m.entities ∧ isTargetsFirst order = true
  circle : ¬ m.Acyclic → sorted? = none

namespace Sorts

variable {sorted? : Option (List Entity)} (sorts : m.Sorts sorted?)
include sorts

theorem perm : (sorted?.getD m.entities).Perm m.entities := by
  by_cases acyclic : m.Acyclic
  · obtain ⟨order, rfl, perm, _⟩ := sorts.acyclic acyclic
    exact perm
  · rw [sorts.circle acyclic]
    exact .refl _

theorem targetsFirst (acyclic : m.Acyclic) : isTargetsFirst (sorted?.getD m.entities) = true := by
  obtain ⟨order, rfl, _, first⟩ := sorts.acyclic acyclic
  exact first

end Sorts

/-- The walk is such a sort, if it is looked at whether it has put targets first. -/
theorem walkOrder_sorts (names : (m.entities.map (·.name)).Nodup) :
    m.Sorts (if isTargetsFirst m.walkOrder then some m.walkOrder else none) where
  acyclic acyclic := by
    have first := walkOrder_targetsFirst acyclic names
    exact ⟨m.walkOrder, if_pos first, walkOrder_perm names, first⟩
  circle circle := if_neg (mt (isTargetsFirst_walkOrder names).1 circle)

theorem creationOrder_eq (m : Model) :
    m.creationOrder = (if isTargetsFirst m.walkOrder then some m.walkOrder else none).getD m.entities := by
  rw [creationOrder]
  split <;> rfl

end TreeStore.Model
