import Mathlib.Data.List.TakeWhile
import TreeStore.Load.Loader
import TreeStore.Proofs.Names
import TreeStore.Proofs.Numerals
import TreeStore.Proofs.Store.Table

/-! What is relied on of a store's values, and that the column values at hand are so. -/

namespace TreeStore

/-- The types of columns are known, by names that may stand in a cast; equality is an equivalence; texts come
back as they were put in and are equal only if they are. Which texts can be read as values of the other types,
and which of these are equal, is left open. -/
structure ValueSystem.Ideal {V : Type} (vs : ValueSystem V) : Prop where
  known : ∀ kind : ScalarKind, (vs.typeName? kind.columnType).isSome = true
  plain : ∀ kind : ScalarKind, Loader.isPlainType (Database.catalogType vs kind.columnType) = true
  equivalence : Equivalence fun a b => vs.same a b = true
  texts : ∀ s, ∃ v, vs.ofText? (Database.catalogType vs "VARCHAR") s = some v ∧ vs.toText v = s
  sameTexts : ∀ s s' v v', vs.ofText? (Database.catalogType vs "VARCHAR") s = some v →
    vs.ofText? (Database.catalogType vs "VARCHAR") s' = some v' → vs.same v v' = true → s = s'

/-- Different whole numbers of 64 bits with a sign are not read from their numerals as equal values of a kind. -/
def ValueSystem.TellsWhole {V : Type} (vs : ValueSystem V) (kind : ScalarKind) : Prop :=
  ∀ n k v v', Numeral.isInt64 n = true → Numeral.isInt64 k = true → n ≠ k →
    vs.ofText? (Database.catalogType vs kind.columnType) (toString n) = some v →
    vs.ofText? (Database.catalogType vs kind.columnType) (toString k) = some v' → vs.same v v' = false

/-! ### Column values -/

/-- A number in a form that equal numbers share. -/
def Binary64.normal : Binary64 → Binary64
  | .finite _ 0 _ => .finite false 0 0
  | x => x

theorem Binary64.sameValue_iff {x y : Binary64} : x.sameValue y = true ↔ x.normal = y.normal := by
  unfold sameValue
  split
  · simp [normal]
  · next different =>
    rw [beq_iff_eq]
    refine ⟨fun eq => eq ▸ rfl, fun eq => ?_⟩
    unfold normal at eq
    split at eq
    · next n e =>
      split at eq
      · next n' e' => exact absurd rfl (different n e n' e' rfl)
      · next other => exact absurd eq.symm (other false 0)
    · next other =>
      split at eq
      · exact absurd eq (other false 0)
      · exact eq

namespace ColumnValue

def normal : ColumnValue → ColumnValue
  | .real x => .real x.normal
  | a => a

theorem same_iff {a b : ColumnValue} : a.same b = true ↔ a.normal = b.normal := by
  cases a <;> cases b <;> simp [same, normal, Binary64.sameValue_iff]

theorem catalogType_kind (kind : ScalarKind) : Database.catalogType system kind.columnType = kind.columnType := by
  cases kind <;> decide

theorem ofText_varchar (s : String) : system.ofText? (Database.catalogType system "VARCHAR") s = some (.text s) := by
  have type : Database.catalogType system "VARCHAR" = "VARCHAR" := catalogType_kind .text
  rw [type]
  rfl

/-- Column values are as they are relied on to be. -/
theorem system_ideal : system.Ideal where
  known := fun kind => by cases kind <;> decide
  plain := fun kind => by
    rw [catalogType_kind]
    cases kind <;> decide
  equivalence :=
    { refl := fun _ => same_iff.2 rfl
      symm := fun h => same_iff.2 (same_iff.1 h).symm
      trans := fun h h' => same_iff.2 ((same_iff.1 h).trans (same_iff.1 h')) }
  texts := fun s => ⟨.text s, ofText_varchar s, rfl⟩
  sameTexts := fun s s' v v' read read' same => by
    rw [ofText_varchar] at read read'
    cases read
    cases read'
    have equal : (text s).normal = (text s').normal := same_iff.1 same
    exact text.inj equal

/-! ### Whole numbers -/

theorem joinDigits_eq {ds : List Char} (joined : ∀ c ∈ ds, c ≠ '_') : joinDigits 10 ds = some ds := by
  induction ds with
  | nil => rfl
  | cons c rest ih =>
    have others := ih fun d mem => joined d (List.mem_cons_of_mem _ mem)
    unfold joinDigits
    split
    · next mark => exact absurd rfl (joined '_' (by simp_all))
    · next mark => exact absurd rfl (joined '_' (by simp_all))
    · simp_all
    · simp_all

theorem decimalParts?_toDigits (n : Nat) : decimalParts? (Nat.toDigits 10 n) = some (n, 0, 0) := by
  have all : (Nat.toDigits 10 n).takeWhile Char.isDigit = Nat.toDigits 10 n :=
    List.takeWhile_eq_self_iff.2 Numeral.isDigit_toDigits
  have none : (Nat.toDigits 10 n).dropWhile Char.isDigit = [] := List.dropWhile_eq_nil_iff.2 Numeral.isDigit_toDigits
  unfold decimalParts?
  rw [all, none]
  dsimp only
  rw [List.append_nil, Numeral.natural_toDigits]
  rfl

theorem nearest_whole (n : Nat) : nearest n 0 0 = some n := by
  unfold nearest
  rcases Nat.eq_zero_or_pos n with rfl | pos
  · rfl
  · simp [Nat.pos_iff_ne_zero.1 pos]

theorem splitSign_toString (n : Int) :
    splitSign (toString n).toList = (decide (n < 0), Nat.toDigits 10 n.natAbs) := by
  rw [Numeral.toList_toString]
  by_cases below : n < 0
  · rw [if_pos below, decide_eq_true below]
    rfl
  · rw [if_neg below, decide_eq_false below]
    unfold splitSign
    split
    · next sign => exact absurd (Numeral.isDigit_toDigits '-' (sign ▸ List.mem_cons_self)) (by decide)
    · next sign => exact absurd (Numeral.isDigit_toDigits '+' (sign ▸ List.mem_cons_self)) (by decide)
    · rfl

theorem decimalInt?_toString (n : Int) : decimalInt? (toString n).toList = some n := by
  have joined : joinDigits 10 (Nat.toDigits 10 n.natAbs) = some (Nat.toDigits 10 n.natAbs) :=
    joinDigits_eq fun c mem mark => absurd (mark ▸ Numeral.isDigit_toDigits c mem) (by decide)
  unfold decimalInt?
  rw [splitSign_toString]
  dsimp only
  rw [joined]
  simp only [Option.bind_eq_bind, Option.bind_some, decimalParts?_toDigits, nearest_whole, decide_eq_true_eq]
  refine congrArg some ?_
  split <;> omega

theorem toString_inj {n k : Int} (same : toString n = toString k) : n = k := by
  have read := decimalInt?_toString n
  rw [same, decimalInt?_toString k] at read
  exact (Option.some.inj read).symm

theorem core_toString (n : Int) : core (toString n) = (toString n).toList := by
  have solid : ∀ c ∈ (toString n).toList, (c = ' ' || ('\t' ≤ c && c ≤ '\r')) = false := by
    intro c mem
    rcases Numeral.mem_toString n c mem with rfl | digit
    · decide
    · have lower := (Numeral.isDigit_bounds digit).1
      have high : ¬ c ≤ '\r' := fun le : c.toNat ≤ 13 => by omega
      have other : c ≠ ' ' := by rintro rfl; exact absurd lower (by decide)
      simp [high, other]
  have kept {cs : List Char} (all : ∀ c ∈ cs, (c = ' ' || ('\t' ≤ c && c ≤ '\r')) = false) :
      cs.dropWhile (fun c => c = ' ' || ('\t' ≤ c && c ≤ '\r')) = cs :=
    List.dropWhile_eq_self_iff.2 fun some yes => Bool.false_ne_true ((all _ (List.get_mem ..)).symm.trans yes)
  unfold core
  dsimp only
  rw [kept solid, kept fun c mem => solid c (List.mem_reverse.1 mem), List.reverse_reverse]

/-- A whole number of 64 bits with a sign is read from its numeral. -/
theorem ofText?_bigint {n : Int} (fits : Numeral.isInt64 n = true) : ofText? .bigint (toString n) = some (.int n) := by
  have second : ∀ a b rest, (toString n).toList = a :: b :: rest → b.isDigit = true := by
    intro a b rest split
    rw [Numeral.toList_toString] at split
    split at split
    · exact Numeral.isDigit_toDigits b ((List.cons.inj split).2 ▸ List.mem_cons_self)
    · exact Numeral.isDigit_toDigits b (split ▸ List.mem_cons_of_mem _ List.mem_cons_self)
  have read : intOf? (toString n).toList = some n := by
    unfold intOf?
    split
    · next based => exact absurd (second _ _ _ based) (by decide)
    · next based => exact absurd (second _ _ _ based) (by decide)
    · next based => exact absurd (second _ _ _ based) (by decide)
    · next based => exact absurd (second _ _ _ based) (by decide)
    · rw [decimalInt?_toString]
      exact if_pos fits
  rw [ofText?, core_toString, read]
  rfl

theorem asciiLower_numeral (n : Int) : Text.asciiLower (toString n) = toString n := by
  have kept : (toString n).toList.map Char.toLower = (toString n).toList := by
    refine (List.map_congr_left fun c mem => ?_).trans (List.map_id _)
    rcases Numeral.mem_toString n c mem with rfl | digit
    · rfl
    · have bounds := Numeral.isDigit_bounds digit
      exact Text.toLower_eq_self (by omega)
  rw [Text.asciiLower, kept, String.ofList_toList]

theorem flagOf?_numeral {n : Int} {b : Bool} (read : flagOf? (toString n) = some b) : n = if b then 1 else 0 := by
  have word {s : String} (letter : (s.toList.all fun c => c = '-' || c.isDigit) = false) : toString n ≠ s := by
    rintro rfl
    have all : ((toString n).toList.all fun c => c = '-' || c.isDigit) = true := by
      simpa using Numeral.mem_toString n
    cases letter.symm.trans all
  unfold flagOf? at read
  rw [asciiLower_numeral] at read
  -- Of the words for flags only the two digits are numerals.
  split at read <;> cases read <;> rename_i eq
  all_goals first
    | exact toString_inj eq
    | exact absurd eq (word (by decide))

theorem ofChars?_numeral (n : Int) : Date.ofChars? (toString n).toList = none := by
  have digits : ∀ c ∈ Nat.toDigits 10 n.natAbs, c.isDigit = true := Numeral.isDigit_toDigits
  have none : (Nat.toDigits 10 n.natAbs).dropWhile Char.isDigit = [] := List.dropWhile_eq_nil_iff.2 digits
  have minus : ∀ ds : List Char, ('-' :: ds).dropWhile Char.isDigit = '-' :: ds := fun _ => rfl
  unfold Date.ofChars?
  by_cases below : n < 0
  · rw [Numeral.toList_toString, if_pos below, minus]
    dsimp only
    rw [none]
  · rw [Numeral.toList_toString, if_neg below]
    rw [none]

/-- Only as binary numbers different whole numbers may be equal. -/
theorem tellsWhole {kind : ScalarKind} (other : kind ≠ .real) : system.TellsWhole kind := by
  intro n k v v' fits fits' ne read read'
  rw [catalogType_kind] at read read'
  cases kind with
  | text =>
    cases read
    cases read'
    exact decide_eq_false fun same => ne (toString_inj (text.inj same))
  | integer =>
    cases (ofText?_bigint fits).symm.trans read
    cases (ofText?_bigint fits').symm.trans read'
    exact decide_eq_false fun same => ne (int.inj same)
  | real => exact absurd rfl other
  | boolean =>
    obtain ⟨b, own, rfl⟩ := Option.map_eq_some_iff.1 (show (flagOf? (toString n)).map flag = some v from read)
    obtain ⟨b', own', rfl⟩ := Option.map_eq_some_iff.1 (show (flagOf? (toString k)).map flag = some v' from read')
    refine decide_eq_false fun same => ne ?_
    rw [flagOf?_numeral own, flagOf?_numeral own', flag.inj same]
  | date =>
    have none : system.ofText? "DATE" (toString n) = none := by
      show (Date.ofChars? (core (toString n))).map date = none
      rw [core_toString, ofChars?_numeral]
      rfl
    cases none.symm.trans read

end ColumnValue

end TreeStore
