import Mathlib.Data.List.TakeWhile
import TreeStore.Json.Token
import TreeStore.Proofs.Numerals

/-! Whole numbers of 64 bits, with or without a sign, are read from JSON texts as they are written. -/

namespace TreeStore

namespace Json

theorem isDigit_eq (c : Char) : isDigit c = c.isDigit := rfl

theorem le_ofDigitChars (ds : List Char) (start : Nat) : start ≤ Nat.ofDigitChars 10 ds start := by
  induction ds generalizing start with
  | nil => exact Nat.le_refl _
  | cons c rest ih =>
    rw [Nat.ofDigitChars_cons]
    exact Nat.le_trans (by omega) (ih _)

/-- Digits whose number fits are all added. -/
theorem addDigits_eq {ds : List Char} {start : Nat} (fits : Nat.ofDigitChars 10 ds start ≤ significandMax) :
    addDigits start ds = (Nat.ofDigitChars 10 ds start, ds.length, []) := by
  induction ds generalizing start with
  | nil => rfl
  | cons c rest ih =>
    have next : start * 10 + digit c = 10 * start + (c.toNat - '0'.toNat) := by
      rw [Nat.mul_comm]
      rfl
    rw [Nat.ofDigitChars_cons, ← next] at fits ⊢
    have room : ¬ significandMax < start * 10 + digit c := Nat.not_lt.2 (Nat.le_trans (le_ofDigitChars _ _) fits)
    rw [addDigits, if_neg room, ih fits]
    rfl

/-- Whole numbers that have 64 bits, with or without a sign. -/
def Whole64 (n : Int) : Prop := -0x8000000000000000 ≤ n ∧ n < 0x10000000000000000

theorem scanUnsigned_toDigits {k : Nat} {negative : Bool} (fits : k ≤ significandMax) :
    scanUnsigned negative (Nat.toDigits 10 k) = scanUnsigned.whole negative k true 0 [] := by
  have digits : ∀ c ∈ Nat.toDigits 10 k, isDigit c = true := Numeral.isDigit_toDigits
  have all : (Nat.toDigits 10 k).takeWhile isDigit = Nat.toDigits 10 k :=
    List.takeWhile_eq_self_iff.2 digits
  have none : (Nat.toDigits 10 k).dropWhile isDigit = [] := List.dropWhile_eq_nil_iff.2 digits
  have added : addDigits 0 (Nat.toDigits 10 k) = (k, (Nat.toDigits 10 k).length, []) := by
    rw [addDigits_eq (Nat.ofDigitChars_ten_toDigits.symm ▸ fits), Nat.ofDigitChars_ten_toDigits]
  unfold scanUnsigned
  rw [all, none]
  dsimp only
  split
  · next empty => exact absurd empty (Nat.toDigits_ne_nil)
  · next d rest zero =>
    -- A number that begins with a zero and goes on would have no leading digit.
    obtain rfl | pos := Nat.eq_zero_or_pos k
    · cases zero
    · obtain ⟨c, rest', split, head⟩ := Numeral.toDigits_head pos
      rw [split] at zero
      exact absurd (List.cons.inj zero).1 head
  · rw [added]
    rfl

theorem scanNumber_digits {k : Nat} : scanNumber (Nat.toDigits 10 k) = scanUnsigned false (Nat.toDigits 10 k) := by
  unfold scanNumber
  split
  · next rest minus => exact absurd (Numeral.isDigit_toDigits '-' (minus ▸ List.mem_cons_self)) (by decide)
  · rfl

/-- The numeral of a whole number of 64 bits is read as that number. -/
theorem scanNumber_toString {n : Int} (whole : Whole64 n) : scanNumber (toString n).toList = some (.int n, []) := by
  obtain ⟨lower, upper⟩ := whole
  have fits : n.natAbs ≤ significandMax := by
    unfold significandMax
    omega
  rw [Numeral.toList_toString]
  split
  · next below =>
    have least : Numeral.isInt64 (-(n.natAbs : Int)) = true := by
      simp only [Numeral.isInt64, Bool.and_eq_true, decide_eq_true_eq]
      omega
    have some : ¬ (n.natAbs = 0 ∨ (!Numeral.isInt64 (-(n.natAbs : Int))) = true) := by
      rw [least]
      simp only [Bool.not_true, Bool.false_eq_true, or_false]
      omega
    rw [scanNumber, scanUnsigned_toDigits fits, scanUnsigned.whole, if_neg (by decide), if_neg (by decide), if_neg some]
    rw [show -(n.natAbs : Int) = n by omega]
  · next above =>
    rw [scanNumber_digits, scanUnsigned_toDigits fits, scanUnsigned.whole, if_neg (by decide), if_pos (by decide)]
    rw [show (n.natAbs : Int) = n by omega]

/-! ### Tokens -/

namespace Token

theorem isNumberChar_of_digit {c : Char} (digit : c.isDigit = true) : isNumberChar c = true := by
  unfold isNumberChar
  rw [isDigit_eq, digit]
  rfl

theorem numberChars (n : Int) : ∀ c ∈ (toString n).toList, isNumberChar c = true := by
  intro c mem
  rcases Numeral.mem_toString n c mem with rfl | digit
  · rfl
  · exact isNumberChar_of_digit digit

/-- A run of characters that numbers have lasts up to the first other one. -/
theorem scan_number {cs rest : List Char} (run : List Char) (part : ∀ c ∈ cs, isNumberChar c = true)
    (ends : ∀ c ∈ rest.head?, isNumberChar c = false) :
    scan (.number run) (cs ++ rest) = ofNumber (cs.reverse ++ run) ++ scan .between rest := by
  induction cs generalizing run with
  | nil =>
    cases rest with
    | nil => exact (List.append_nil _).symm
    | cons c rest =>
      have other : isNumberChar c = false := ends c rfl
      have stepped : step (.number run) c = beginAfter (ofNumber run) c := by simp [step, other]
      rw [List.nil_append, scan, stepped, scan, beginAfter]
      rcases begun : begin c with ⟨ts, _ | mode⟩ <;> simp [step, begun]
  | cons c cs ih =>
    have stepped : step (.number run) c = ([], some (.number (c :: run))) := by
      simp [step, part c List.mem_cons_self]
    rw [List.cons_append, scan, stepped]
    refine (ih (c :: run) fun d mem => part d (List.mem_cons_of_mem _ mem)).trans ?_
    rw [List.reverse_cons, List.append_assoc, List.singleton_append]

theorem begin_digit {c : Char} (digit : c.isDigit = true) : begin c = ([], some (.number [c])) := by
  have other : ∀ d : Char, d.isDigit = false → c ≠ d := by
    rintro d not rfl
    exact Bool.false_ne_true (not.symm.trans digit)
  have solid : isSpace c = false := by
    simp [isSpace, other ' ' rfl, other '\n' rfl, other '\t' rfl, other '\r' rfl]
  simp [begin, solid, other '"' rfl, isDigit_eq, digit]

theorem begin_literal (n : Int) : ∃ c cs, (toString n).toList = c :: cs ∧ begin c = ([], some (.number [c])) := by
  rw [Numeral.toList_toString]
  split
  · exact ⟨'-', _, rfl, rfl⟩
  · cases digits : Nat.toDigits 10 n.natAbs with
    | nil => exact absurd digits Nat.toDigits_ne_nil
    | cons c cs => exact ⟨c, cs, rfl, begin_digit (Numeral.isDigit_toDigits c (digits ▸ List.mem_cons_self))⟩

/-- The literal of a whole number of 64 bits is one token, whatever comes after it. -/
theorem scan_literal {n : Int} (whole : Whole64 n) {rest : List Char}
    (ends : ∀ c ∈ rest.head?, isNumberChar c = false) :
    scan .between ((toString n).toList ++ rest) = .value (.int n) :: scan .between rest := by
  obtain ⟨c, cs, literal, begun⟩ := begin_literal n
  have part : ∀ d ∈ cs, isNumberChar d = true := fun d mem =>
    numberChars n d (literal ▸ List.mem_cons_of_mem _ mem)
  have read : ofNumber (cs.reverse ++ [c]) = [.value (.int n)] := by
    rw [← List.reverse_cons, ← literal, ofNumber, List.reverse_reverse, scanNumber_toString whole]
    rfl
  rw [literal, List.cons_append, scan, show step .between c = begin c from rfl, begun]
  exact (scan_number [c] part ends).trans (congrArg (· ++ _) read)

end Token

end Json

end TreeStore
