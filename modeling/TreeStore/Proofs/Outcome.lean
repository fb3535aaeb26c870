import Mathlib.Data.List.Forall2

/-! When sequences of steps that may fail end well. -/

namespace TreeStore

variable {ε α β : Type}

@[simp] theorem ok_bind (a : α) (f : α → Except ε β) : (Except.ok a >>= f) = f a := rfl

theorem bind_eq_ok {x : Except ε α} {f : α → Except ε β} {b : β} :
    (x >>= f) = .ok b ↔ ∃ a, x = .ok a ∧ f a = .ok b := by
  cases x with
  | error e => exact ⟨(nomatch ·), fun ⟨_, h, _⟩ => nomatch h⟩
  | ok a => exact ⟨fun h => ⟨a, rfl, h⟩, fun ⟨_, eq, h⟩ => by cases eq; exact h⟩

theorem seq_eq_ok {x : Except ε Unit} {f : Unit → Except ε β} {b : β} :
    (x >>= f) = .ok b ↔ x = .ok () ∧ f () = .ok b :=
  bind_eq_ok.trans ⟨fun ⟨(), h⟩ => h, fun h => ⟨(), h⟩⟩

theorem seq_eq_error {x : Except ε Unit} {f : Unit → Except ε β} {e : ε} :
    (x >>= f) = .error e ↔ x = .error e ∨ x = .ok () ∧ f () = .error e := by
  cases x with
  | error e' =>
    constructor
    · exact fun h => .inl (congrArg _ (Except.error.inj h))
    · rintro (h | ⟨ok, _⟩)
      · exact congrArg _ (Except.error.inj h)
      · cases ok
  | ok => exact ⟨fun h => .inr ⟨rfl, h⟩, fun h => h.elim (nomatch ·) And.right⟩

theorem mapError_eq_ok {δ : Type} {x : Except ε α} {f : ε → δ} {a : α} :
    x.mapError f = .ok a ↔ x = .ok a := by
  cases x with
  | error e => exact ⟨(nomatch ·), (nomatch ·)⟩
  | ok b => exact ⟨fun h => congrArg _ (Except.ok.inj h), fun h => congrArg _ (Except.ok.inj h)⟩

theorem forM_eq_ok {xs : List α} {f : α → Except ε Unit} :
    xs.forM f = .ok () ↔ ∀ x ∈ xs, f x = .ok () := by
  rw [List.forM_eq_forM]
  induction xs with
  | nil => exact ⟨fun _ _ => (nomatch ·), fun _ => rfl⟩
  | cons x rest ih => rw [List.forM_cons, seq_eq_ok, ih, List.forall_mem_cons]

/-- A walk over a list fails where the first element fails, after elements that do not. -/
theorem forM_eq_error {xs : List α} {f : α → Except ε Unit} {e : ε} :
    xs.forM f = .error e ↔
      ∃ before x after, xs = before ++ x :: after ∧ (∀ y ∈ before, f y = .ok ()) ∧ f x = .error e := by
  rw [List.forM_eq_forM]
  induction xs with
  | nil => exact ⟨(nomatch ·), fun ⟨before, x, after, eq, _⟩ => absurd eq.symm (by simp)⟩
  | cons y rest ih =>
    rw [List.forM_cons]
    cases first : f y with
    | error e' =>
      constructor
      · intro failed
        cases failed
        exact ⟨[], y, rest, rfl, List.forall_mem_nil _, first⟩
      · rintro ⟨before, x, after, eq, good, failed⟩
        cases before with
        | nil =>
          obtain ⟨rfl, rfl⟩ := List.cons.inj eq
          exact first.symm.trans failed
        | cons z before =>
          obtain ⟨rfl, rfl⟩ := List.cons.inj eq
          exact nomatch first.symm.trans (good y List.mem_cons_self)
    | ok =>
      rw [ok_bind, ih]
      constructor
      · rintro ⟨before, x, after, rfl, good, failed⟩
        exact ⟨y :: before, x, after, rfl, List.forall_mem_cons.2 ⟨first, good⟩, failed⟩
      · rintro ⟨before, x, after, eq, good, failed⟩
        cases before with
        | nil =>
          obtain ⟨rfl, rfl⟩ := List.cons.inj eq
          exact nomatch first.symm.trans failed
        | cons z before =>
          obtain ⟨rfl, rfl⟩ := List.cons.inj eq
          exact ⟨before, x, after, rfl, fun w mem => good w (List.mem_cons_of_mem _ mem), failed⟩

theorem foldlM_eq_error {f : β → α → Except ε β} {xs : List α} {b : β} {e : ε} (failed : xs.foldlM f b = .error e) :
    ∃ before x after c, xs = before ++ x :: after ∧ before.foldlM f b = .ok c ∧ f c x = .error e := by
  induction xs generalizing b with
  | nil => cases failed
  | cons x rest ih =>
    rw [List.foldlM_cons] at failed
    cases first : f b x with
    | error e' =>
      rw [first] at failed
      exact ⟨[], x, rest, b, rfl, rfl, first.trans failed⟩
    | ok c =>
      rw [first] at failed
      obtain ⟨before, y, after, d, rfl, passed, failed⟩ := ih failed
      exact ⟨x :: before, y, after, d, rfl, by rw [List.foldlM_cons, first]; exact passed, failed⟩

theorem mapM_eq_ok {f : α → Except ε β} {xs : List α} {ys : List β} :
    xs.mapM f = .ok ys ↔ List.Forall₂ (fun x y => f x = .ok y) xs ys := by
  induction xs generalizing ys with
  | nil =>
    rw [List.mapM_nil]
    exact ⟨fun h => by cases h; exact .nil, fun h => by cases h; rfl⟩
  | cons x rest ih =>
    simp only [List.mapM_cons, bind_eq_ok, ih]
    constructor
    · rintro ⟨y, hy, ys', hys, eq⟩
      cases eq
      exact .cons hy hys
    · rintro (_ | ⟨hy, hys⟩)
      exact ⟨_, hy, _, hys, rfl⟩

/-! ### Steps with answers -/

def steps {σ : Type} (step : α → σ → β × σ) : List α → σ → List β × σ
  | [], s => ([], s)
  | x :: rest, s =>
    let (answer, s) := step x s
    let (answers, s) := steps step rest s
    (answer :: answers, s)

end TreeStore
