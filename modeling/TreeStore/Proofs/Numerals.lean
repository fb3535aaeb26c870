import TreeStore.Number.Numeral

/-! Whole numbers written in decimal digits are read back. -/

namespace TreeStore.Numeral

theorem isDigit_bounds {c : Char} (digit : c.isDigit = true) : 48 ≤ c.toNat ∧ c.toNat ≤ 57 := by
  simp only [Char.isDigit, Bool.and_eq_true, decide_eq_true_eq] at digit
  exact digit

theorem digitValue_decimal {c : Char} (digit : c.isDigit = true) :
    digitValue? c = some (c.toNat - 48) ∧ c.toNat - 48 < 10 := by
  have bounds := isDigit_bounds digit
  exact ⟨if_pos (show '0' ≤ c ∧ c ≤ '9' from bounds), by omega⟩

theorem natural_fold {ds : List Char} (digits : ∀ c ∈ ds, c.isDigit = true) (start : Nat) :
    (ds.foldl (fun (acc : Option Nat) c => do
      let n ← acc
      let d ← digitValue? c
      if d < 10 then some (n * 10 + d) else none) (some start)) = some (Nat.ofDigitChars 10 ds start) := by
  induction ds generalizing start with
  | nil => simp
  | cons c rest ih =>
    obtain ⟨value, small⟩ := digitValue_decimal (digits c List.mem_cons_self)
    have tail := ih (fun d hd => digits d (List.mem_cons_of_mem _ hd)) (start * 10 + (c.toNat - 48))
    rw [Nat.ofDigitChars_cons, List.foldl_cons]
    simp only [Option.bind_eq_bind, Option.bind_some, value, small, if_true] at tail ⊢
    rw [tail, Nat.mul_comm]
    rfl

theorem isDigit_toDigits {n : Nat} : ∀ c ∈ Nat.toDigits 10 n, c.isDigit = true := fun _ mem =>
  Nat.isDigit_of_mem_toDigits (by decide) (by decide) mem

theorem natural_toDigits (n : Nat) : natural? 10 (Nat.toDigits 10 n) = some n := by
  have nonempty : (Nat.toDigits 10 n).isEmpty = false := by simp [Nat.toDigits_ne_nil]
  unfold natural?
  rw [nonempty, if_neg (by decide), natural_fold isDigit_toDigits, Nat.ofDigitChars_ten_toDigits]

theorem toList_toString (n : Int) :
    (toString n).toList = if n < 0 then '-' :: Nat.toDigits 10 n.natAbs else Nat.toDigits 10 n.natAbs := by
  cases n with
  | ofNat k =>
    rw [if_neg (by simp)]
    exact Nat.toList_repr
  | negSucc k =>
    rw [if_pos (Int.negSucc_lt_zero k)]
    show ("-" ++ (k + 1).repr).toList = _
    rw [String.toList_append, Nat.toList_repr]
    rfl

theorem mem_toString (n : Int) : ∀ c ∈ (toString n).toList, c = '-' ∨ c.isDigit = true := by
  have digits : ∀ c ∈ Nat.toDigits 10 n.natAbs, c = '-' ∨ c.isDigit = true := fun c mem => .inr (isDigit_toDigits c mem)
  rw [toList_toString]
  split
  · exact List.forall_mem_cons.2 ⟨.inl rfl, digits⟩
  · exact digits

theorem toDigits_head {n : Nat} (pos : 0 < n) : ∃ c rest, Nat.toDigits 10 n = c :: rest ∧ c ≠ '0' := by
  induction n using Nat.strongRecOn with
  | ind n ih =>
    rw [Nat.toDigits_eq_if (by decide)]
    split
    · next small => exact ⟨_, [], rfl, fun zero => by simp at zero; omega⟩
    · obtain ⟨c, rest, digits, head⟩ := ih (n / 10) (by omega) (by omega)
      exact ⟨c, rest ++ [(n % 10).digitChar], by rw [digits]; rfl, head⟩

/-- A number that is not negative and has 64 bits is read back from its digits. -/
theorem int64_toString {n : Int} (sign : 0 ≤ n) (bound : n < 0x8000000000000000) :
    int64? (toString n) = some n := by
  obtain ⟨k, rfl⟩ := Int.eq_ofNat_of_zero_le sign
  have text : (toString (k : Int)).toList = Nat.toDigits 10 k :=
    (toList_toString k).trans (if_neg (Int.not_lt.2 sign))
  have fits : isInt64 k = true := by
    simp only [isInt64, Bool.and_eq_true, decide_eq_true_eq]
    omega
  unfold int64?
  rw [text]
  split
  · next ds eq => exact absurd (isDigit_toDigits '-' (eq ▸ List.mem_cons_self)) (by decide)
  · next ds eq => exact absurd (isDigit_toDigits '+' (eq ▸ List.mem_cons_self)) (by decide)
  · rw [natural_toDigits, Option.bind_some]
    exact if_pos fits

end TreeStore.Numeral
