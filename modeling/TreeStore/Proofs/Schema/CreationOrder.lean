import Mathlib.Data.List.Nodup
import Mathlib.Data.List.Perm.Basic
import TreeStore.Schema.Order

/-! The order of creation has every entity once, whatever way the walk through the relations takes. -/

namespace TreeStore.Model

/-- One walk goes on from another: what it has left in addition is what it has seen in addition. -/
def Walk.GoesOn (m : Model) (w w' : Walk) : Prop :=
  ∃ more, w'.left = more ++ w.left ∧ w'.seen.Perm (more.map (·.name) ++ w.seen) ∧
    (∀ e ∈ more, e ∈ m.entities) ∧ (w.seen.Nodup → w'.seen.Nodup)

namespace Walk.GoesOn

variable {m : Model} {w w' w'' : Walk}

theorem refl (w : Walk) : GoesOn m w w := ⟨[], rfl, .refl _, by simp, id⟩

theorem trans (first : GoesOn m w w') (second : GoesOn m w' w'') : GoesOn m w w'' := by
  obtain ⟨new, left, seen, known, distinct⟩ := first
  obtain ⟨new', left', seen', known', distinct'⟩ := second
  refine ⟨new' ++ new, by simp [left', left], ?_, ?_, distinct' ∘ distinct⟩
  · have joined := seen'.trans (seen.append_left (new'.map (·.name)))
    simpa using joined
  · intro e mem
    exact (List.mem_append.1 mem).elim (known' e) (known e)

theorem seen_subset (on : GoesOn m w w') {n : Name} (mem : n ∈ w.seen) : n ∈ w'.seen := by
  obtain ⟨_, _, seen, _⟩ := on
  exact seen.mem_iff.2 (List.mem_append_right _ mem)

theorem foldl {f : Walk → Entity → Walk} (es : List Entity)
    (step : ∀ w, ∀ e ∈ es, GoesOn m w (f w e)) (w : Walk) : GoesOn m w (es.foldl f w) := by
  induction es generalizing w with
  | nil => exact refl w
  | cons e rest ih =>
    have first := step w e List.mem_cons_self
    exact first.trans (ih (fun w e mem => step w e (List.mem_cons_of_mem _ mem)) (f w e))

end Walk.GoesOn

theorem walk_goesOn (m : Model) (steps : Nat) (w : Walk) {e : Entity} (mem : e ∈ m.entities) :
    Walk.GoesOn m w (m.walk steps w e) := by
  induction steps generalizing w e with
  | zero => exact .refl w
  | succ steps ih =>
    rw [walk]
    split
    · exact .refl w
    · next new =>
      have below := Walk.GoesOn.foldl (m := m) (m.referrers e)
        (fun w f hf => ih w (List.mem_filter.1 hf).1) { w with seen := e.name :: w.seen }
      obtain ⟨more, left, seen, known, distinct⟩ := below
      refine ⟨e :: more, by simp [left], ?_, ?_, fun nodup => ?_⟩
      · simpa using seen.trans List.perm_middle
      · intro f hf
        rcases List.mem_cons.1 hf with rfl | hf
        · exact mem
        · exact known f hf
      · exact distinct (List.nodup_cons.2 ⟨by simpa using new, nodup⟩)

theorem walk_seen (m : Model) (steps : Nat) (w : Walk) (e : Entity) :
    e.name ∈ (m.walk (steps + 1) w e).seen := by
  rw [walk]
  split
  · next old => simpa using old
  · have below := Walk.GoesOn.foldl (m := m) (m.referrers e)
      (fun w f hf => m.walk_goesOn steps w (List.mem_filter.1 hf).1) { w with seen := e.name :: w.seen }
    exact below.seen_subset List.mem_cons_self

theorem walks_seen (m : Model) (steps : Nat) (es : List Entity) (sub : ∀ e ∈ es, e ∈ m.entities)
    (w : Walk) : ∀ e ∈ es, e.name ∈ (es.foldl (m.walk (steps + 1)) w).seen := by
  induction es generalizing w with
  | nil => simp
  | cons f rest ih =>
    have later := Walk.GoesOn.foldl (m := m) (f := m.walk (steps + 1)) rest
      (fun w e he => m.walk_goesOn (steps + 1) w (sub e (List.mem_cons_of_mem _ he)))
      (m.walk (steps + 1) w f)
    intro e mem
    rcases List.mem_cons.1 mem with rfl | mem
    · exact later.seen_subset (m.walk_seen steps w e)
    · exact ih (fun e he => sub e (List.mem_cons_of_mem _ he)) _ e mem

theorem walkOrder_perm {m : Model} (distinct : (m.entities.map (·.name)).Nodup) :
    m.walkOrder.Perm m.entities := by
  have all := Walk.GoesOn.foldl (m := m) (f := m.walk (m.entities.length + 1)) m.entities
    (fun w e he => m.walk_goesOn _ w he) {}
  obtain ⟨more, left, seen, known, nodup⟩ := all
  have left : m.walkOrder = more := by rw [walkOrder]; simpa using left
  have seen : (m.entities.foldl (m.walk (m.entities.length + 1)) {}).seen.Perm (more.map (·.name)) := by
    simpa using seen
  have names : (more.map (·.name)).Nodup := seen.nodup_iff.1 (nodup .nil)
  rw [left, List.perm_ext_iff_of_nodup names.of_map distinct.of_map]
  refine fun e => ⟨known e, fun mem => ?_⟩
  have mem' := seen.mem_iff.1 (m.walks_seen _ m.entities (fun _ => id) {} e mem)
  obtain ⟨f, hf, same⟩ := List.mem_map.1 mem'
  exact List.inj_on_of_nodup_map distinct (known f hf) mem same ▸ hf

/-- The order of creation is a rearrangement of the entities, if their names are distinct. -/
theorem creationOrder_perm {m : Model} (distinct : (m.entities.map (·.name)).Nodup) :
    m.creationOrder.Perm m.entities := by
  rw [creationOrder]
  split
  · exact walkOrder_perm distinct
  · exact .refl _

end TreeStore.Model
