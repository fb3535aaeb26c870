import Mathlib.Data.List.TakeWhile
import TreeStore.Proofs.Names
import TreeStore.ScalarKind

/-! What a declared kind may be written as: one of its words, with blanks around it and in any case. Whatever is no such
word means text. -/

namespace TreeStore

namespace Text

theorem toLower_of_blank {c : Char} (blank : isBlankChar c = true) : c.toLower = c := by
  refine toLower_eq_self ?_
  simp only [isBlankChar, inRanges, blankRanges, List.any_cons, List.any_nil, Bool.or_false, Bool.or_eq_true,
    Bool.and_eq_true, decide_eq_true_eq] at blank
  omega

theorem dropWhile_solid {cs : List Char} (solid : ∀ c ∈ cs, isBlankChar c = false) :
    cs.dropWhile isBlankChar = cs := by
  cases cs with
  | nil => rfl
  | cons c rest => rw [List.dropWhile_cons, solid c List.mem_cons_self, if_neg Bool.false_ne_true]

/-- Trimming takes off what is blank around a word. -/
theorem trim_surrounded {before word after : String} (first : isBlank before = true) (last : isBlank after = true)
    (solid : ∀ c ∈ word.toList, isBlankChar c = false) : trim (before ++ word ++ after) = word := by
  rw [isBlank, List.all_eq_true] at first last
  have front : (before ++ word ++ after).toList.dropWhile isBlankChar =
      (word.toList ++ after.toList).dropWhile isBlankChar := by
    rw [String.toList_append, String.toList_append, List.append_assoc, List.dropWhile_append_of_pos first]
  have back : dropEndWhile isBlankChar (word.toList ++ after.toList) = word.toList := by
    have reversed : ∀ c ∈ after.toList.reverse, isBlankChar c = true := fun c mem => last c (List.mem_reverse.1 mem)
    rw [dropEndWhile, List.reverse_append, List.dropWhile_append_of_pos reversed,
      dropWhile_solid fun c mem => solid c (List.mem_reverse.1 mem), List.reverse_reverse]
  rw [trim, front]
  cases inside : word.toList with
  | nil =>
    rw [List.nil_append, List.dropWhile_eq_nil_iff.2 last]
    exact (String.toList_eq_nil_iff.1 inside).symm
  | cons c rest =>
    rw [List.cons_append, List.dropWhile_cons, solid c (inside ▸ List.mem_cons_self), if_neg Bool.false_ne_true,
      ← List.cons_append, ← inside, back, String.ofList_toList]

/-- A text is its trimmed form with blanks around it. -/
theorem trim_split (s : String) : ∃ before after, isBlank before = true ∧ isBlank after = true ∧
    s = before ++ trim s ++ after := by
  let rest := s.toList.dropWhile isBlankChar
  refine ⟨String.ofList (s.toList.takeWhile isBlankChar), String.ofList (rest.reverse.takeWhile isBlankChar).reverse,
    ?_, ?_, ?_⟩
  · simp [isBlank]
  · simp [isBlank]
  · have split : rest = dropEndWhile isBlankChar rest ++ (rest.reverse.takeWhile isBlankChar).reverse := by
      rw [dropEndWhile, ← List.reverse_append, List.takeWhile_append_dropWhile, List.reverse_reverse]
    rw [← String.toList_inj]
    simp only [trim, String.toList_append, String.toList_ofList, List.append_assoc]
    rw [← split, List.takeWhile_append_dropWhile]

end Text

namespace ScalarKind

def aliases : ScalarKind → List String
  | .text => ["string", "text", "varchar"]
  | .integer => ["int", "integer", "long"]
  | .real => ["float", "double", "real", "decimal"]
  | .boolean => ["bool", "boolean"]
  | .date => ["date"]

/-- The ways to write a kind: a word for it, in any case and with any blanks around it. -/
def Spelled (k : ScalarKind) (s : String) : Prop :=
  ∃ before word after, s = before ++ word ++ after ∧ Text.isBlank before = true ∧ Text.isBlank after = true ∧
    Text.asciiLower word ∈ k.aliases

theorem ofWord?_eq_some {k : ScalarKind} {w : String} : ofWord? w = some k ↔ w ∈ k.aliases := by
  constructor
  · intro found
    unfold ofWord? at found
    split at found <;> cases found <;> decide
  · intro listed
    have all : k.aliases.all (fun w => ofWord? w == some k) = true := by cases k <;> decide
    simpa using List.all_eq_true.1 all w listed

theorem aliases_solid {k : ScalarKind} {w : String} (listed : w ∈ k.aliases) :
    ∀ c ∈ w.toList, Text.isBlankChar c = false := by
  have all : k.aliases.all (fun w => w.toList.all fun c => !Text.isBlankChar c) = true := by cases k <;> decide
  intro c mem
  simpa using List.all_eq_true.1 (List.all_eq_true.1 all w listed) c mem

theorem spelled_iff {k : ScalarKind} {s : String} : k.Spelled s ↔ ofWord? (Text.asciiLower (Text.trim s)) = some k := by
  rw [ofWord?_eq_some]
  constructor
  · rintro ⟨before, word, after, rfl, first, last, listed⟩
    rw [Text.trim_surrounded first last fun c mem => ?_]
    · exact listed
    · cases blank : Text.isBlankChar c with
      | false => rfl
      | true =>
        have small : c ∈ (Text.asciiLower word).toList := by
          rw [Text.asciiLower, String.toList_ofList]
          exact List.mem_map.2 ⟨c, mem, Text.toLower_of_blank blank⟩
        exact blank.symm.trans (aliases_solid listed c small)
  · intro listed
    obtain ⟨before, after, first, last, eq⟩ := Text.trim_split s
    exact ⟨before, _, after, eq, first, last, listed⟩

/-- A text is read as the kind that it is a way to write, and as text if it is none. -/
theorem parse_eq_iff {k : ScalarKind} {s : String} :
    parse s = k ↔ k.Spelled s ∨ k = .text ∧ ∀ other : ScalarKind, ¬ other.Spelled s := by
  simp only [spelled_iff, parse]
  cases ofWord? (Text.asciiLower (Text.trim s)) <;> simp [eq_comm]

end ScalarKind

end TreeStore
