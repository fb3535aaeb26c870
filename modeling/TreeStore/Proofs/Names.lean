import TreeStore.Name
import TreeStore.Store.Database

/-! Names compared without regard to case. On identifiers, which are ASCII, the small form of the store's
names and the ASCII small form of the loader's are one and the same, and it goes through `++`. -/

namespace TreeStore

def Text.IsAscii (s : String) : Prop := ∀ c ∈ s.toList, c.toNat < 128

namespace Text

theorem isAscii_iff {s : String} : IsAscii s ↔ (s.toList.all fun c => decide (c.toNat < 128)) = true := by
  simp only [IsAscii, List.all_eq_true, decide_eq_true_eq]

theorem isAscii_append (s t : String) : IsAscii (s ++ t) ↔ IsAscii s ∧ IsAscii t := by
  simp only [IsAscii, String.toList_append, List.mem_append]
  exact ⟨fun h => ⟨fun c hc => h c (.inl hc), fun c hc => h c (.inr hc)⟩,
    fun h c hc => hc.elim (h.1 c) (h.2 c)⟩

theorem lowerFrom_ascii (cs before : List Char) (ascii : ∀ c ∈ cs, c.toNat < 128) :
    lowerFrom before cs = cs.map Char.toLower := by
  induction cs generalizing before with
  | nil => rfl
  | cons c rest ih =>
    have small : c.toNat < 128 := ascii c List.mem_cons_self
    have notSigma : c ≠ 'Σ' := by rintro rfl; exact absurd small (by decide)
    have tail := ih (c :: before) fun d hd => ascii d (List.mem_cons_of_mem _ hd)
    simp [lowerFrom, notSigma, lowerChar, small, tail]

theorem lower_ascii {s : String} (ascii : IsAscii s) : lower s = asciiLower s := by
  simp only [lower, asciiLower, lowerFrom_ascii s.toList [] ascii]

theorem toLower_eq_self {c : Char} (other : ¬ (65 ≤ c.toNat ∧ c.toNat ≤ 90)) : c.toLower = c := dif_neg other

theorem asciiLower_append (s t : String) : asciiLower (s ++ t) = asciiLower s ++ asciiLower t := by
  simp [asciiLower, String.toList_append, String.ofList_append]

theorem sameIgnoringCase_iff {s t : String} : sameIgnoringCase s t = true ↔ asciiLower s = asciiLower t :=
  beq_iff_eq

@[simp] theorem sameIgnoringCase_self (s : String) : sameIgnoringCase s s = true := beq_self_eq_true _

/-- An underscore neither is a cased letter nor lets what comes after it count. -/
theorem casedNext_mark (cs rest : List Char) : casedNext (cs ++ '_' :: rest) = casedNext cs := by
  have ignorable : inRanges caseIgnorableRanges 95 = false := by decide +kernel
  have cased : inRanges casedRanges 95 = false := by decide +kernel
  induction cs with
  | nil => simp [casedNext, ignorable, cased]
  | cons c cs ih =>
    cases ignored : inRanges caseIgnorableRanges c.toNat with
    | true => simpa [casedNext, ignored] using ih
    | false => simp [casedNext, ignored]

/-- The end of a column's name makes no difference to the small form of what stands before it. -/
theorem lowerFrom_mark (cs before : List Char) :
    lowerFrom before (cs ++ ['_', 'i', 'd']) = lowerFrom before cs ++ ['_', 'i', 'd'] := by
  induction cs generalizing before with
  | nil => rfl
  | cons c cs ih => simp only [List.cons_append, lowerFrom, ih, casedNext_mark, List.append_assoc]

end Text

theorem sameName_iff {a b : String} : sameName a b = true ↔ Text.lower a = Text.lower b := beq_iff_eq

@[simp] theorem sameName_self (a : String) : sameName a a = true := beq_self_eq_true _

theorem sameName_comm (a b : String) : sameName a b = sameName b a := Bool.beq_comm

/-- On ASCII texts the two ways of leaving case out of account agree. -/
theorem sameIgnoringCase_ascii {a b : String} (ha : Text.IsAscii a) (hb : Text.IsAscii b) :
    Text.sameIgnoringCase a b = sameName a b := by
  simp only [Text.sameIgnoringCase, sameName, Text.lower_ascii ha, Text.lower_ascii hb]

namespace Ident

theorem isStart_ascii {c : Char} (start : isStart c = true) : c.toNat < 128 := by
  rcases Bool.or_eq_true_iff.1 start with alpha | underscore
  · rcases Bool.or_eq_true_iff.1 alpha with upper | lower
    · have bound : c.val ≤ 'Z'.val := (of_decide_eq_true upper).2
      exact Nat.lt_of_le_of_lt bound (by decide)
    · have bound : c.val ≤ 'z'.val := of_decide_eq_true (Bool.and_eq_true_iff.1 lower).2
      exact Nat.lt_of_le_of_lt bound (by decide)
  · obtain rfl := beq_iff_eq.1 underscore
    decide

theorem isPart_ascii {c : Char} (part : isPart c = true) : c.toNat < 128 := by
  simp only [isPart, Char.isAlphanum, Bool.or_eq_true, Char.isDigit, Bool.and_eq_true,
    decide_eq_true_eq] at part
  rcases part with (h | ⟨_, h⟩) | h
  · exact isStart_ascii (by simp [isStart, h])
  · exact Nat.lt_of_le_of_lt h (by decide)
  · exact isStart_ascii (by simp [isStart, h])

/-- What a valid identifier is: a first character and further ones, few enough. -/
theorem isValid_iff {s : String} : isValid s = true ↔
    ∃ c rest, s.toList = c :: rest ∧ s.utf8ByteSize ≤ maxBytes ∧ isStart c = true ∧
      rest.all isPart = true := by
  unfold isValid fault?
  cases s.toList with
  | nil => simp
  | cons c rest =>
    have unique : (∃ d tail, c :: rest = d :: tail ∧ s.utf8ByteSize ≤ maxBytes ∧ isStart d = true ∧
        tail.all isPart = true) ↔
        s.utf8ByteSize ≤ maxBytes ∧ isStart c = true ∧ rest.all isPart = true :=
      ⟨fun ⟨_, _, eq, h⟩ => by cases eq; exact h, fun h => ⟨c, rest, rfl, h⟩⟩
    rw [unique]
    dsimp only
    split
    · next long => exact ⟨(nomatch ·), fun h => absurd h.1 (Nat.not_le_of_lt long)⟩
    · next short =>
      cases start : isStart c with
      | false => simp
      | true =>
        cases parts : rest.all isPart with
        | false => simp
        | true => simp [Nat.le_of_not_lt short]

theorem isValid_part {s : String} (valid : isValid s = true) : ∀ c ∈ s.toList, isPart c = true := by
  obtain ⟨c, rest, eq, _, start, parts⟩ := isValid_iff.1 valid
  rw [eq, List.forall_mem_cons]
  refine ⟨?_, List.all_eq_true.1 parts⟩
  rcases Bool.or_eq_true_iff.1 start with letter | underscore
  · simp [isPart, Char.isAlphanum, letter]
  · simp [isPart, underscore]

theorem isValid_ascii {s : String} (valid : isValid s = true) : Text.IsAscii s :=
  fun c mem => isPart_ascii (isValid_part valid c mem)

end Ident

theorem Name.ext {n k : Name} (same : n.text = k.text) : n = k := by
  cases n
  cases k
  cases same
  rfl

theorem check_ok {name context : String} : Ident.check name context = .ok () ↔ Ident.isValid name = true := by
  unfold Ident.check Ident.isValid
  cases Ident.fault? name <;> simp

namespace Schema

theorem contextColumn_ascii {e : String} : Text.IsAscii (contextColumn e) ↔ Text.IsAscii e := by
  have tail : Text.IsAscii "_id" := Text.isAscii_iff.2 rfl
  simp [contextColumn, Text.isAscii_append, tail]

theorem lower_contextColumn (e : String) : Text.lower (contextColumn e) = Text.lower e ++ "_id" := by
  have mark : "_id".toList = ['_', 'i', 'd'] := rfl
  rw [contextColumn, Text.lower, Text.lower, String.toList_append, mark, Text.lowerFrom_mark,
    String.ofList_append]

theorem contextColumn_ne_id (e : String) : Text.lower (contextColumn e) ≠ idColumn := by
  intro same
  rw [lower_contextColumn] at same
  have lengths := congrArg String.length same
  have three : "_id".length = 3 := by decide
  have two : idColumn.length = 2 := by decide
  rw [String.length_append] at lengths
  omega

theorem contextColumn_same (a b : String) :
    Text.sameIgnoringCase (contextColumn a) (contextColumn b) = Text.sameIgnoringCase a b := by
  rw [Bool.eq_iff_iff, Text.sameIgnoringCase_iff, Text.sameIgnoringCase_iff]
  simp only [contextColumn, Text.asciiLower_append]
  exact ⟨fun h => by simpa [← String.toList_inj, String.toList_append] using h, fun h => by rw [h]⟩

end Schema

end TreeStore
