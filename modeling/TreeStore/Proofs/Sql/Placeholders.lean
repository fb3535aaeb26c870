import Mathlib.Data.List.Basic
import TreeStore.Load.Loader

/-! Placeholders in SQL text. A question mark inside a quoted name is part of the name; names are quoted so that none
is left open, whatever they hold. So the text of a request has a placeholder for every parameter, if the types that it
casts to are plain. -/

namespace TreeStore.Sql

/-- The question marks outside of names in quotes, where a name is open or is not. -/
def placeholdersFrom : Bool → List Char → Nat
  | _, [] => 0
  | inside, c :: rest =>
    if c = '"' then placeholdersFrom (!inside) rest
    else if c = '?' ∧ inside = false then placeholdersFrom inside rest + 1
    else placeholdersFrom inside rest

def placeholders (text : String) : Nat := placeholdersFrom false text.toList

def isUnmarked (text : String) : Bool := text.toList.all fun c => c != '"' && c != '?'

/-- A text has so many placeholders and leaves no name open, whatever follows it. -/
def Asks (n : Nat) (text : String) : Prop :=
  ∀ rest, placeholdersFrom false (text.toList ++ rest) = placeholdersFrom false rest + n

namespace Asks

variable {n k : Nat} {a b : String}

theorem count (asks : Asks n a) : placeholders a = n := by
  have alone := asks []
  rwa [List.append_nil, placeholdersFrom, Nat.zero_add] at alone

theorem append (first : Asks n a) (second : Asks k b) : Asks (n + k) (a ++ b) := by
  intro rest
  rw [String.toList_append, List.append_assoc, first, second]
  omega

theorem unmarked (plain : isUnmarked a = true) : Asks 0 a := by
  intro rest
  have each : ∀ cs : List Char, (cs.all fun c => c != '"' && c != '?') = true →
      placeholdersFrom false (cs ++ rest) = placeholdersFrom false rest := by
    intro cs plain
    induction cs with
    | nil => rfl
    | cons c cs ih =>
      rw [List.all_cons, Bool.and_eq_true_iff, Bool.and_eq_true_iff, bne_iff_ne, bne_iff_ne] at plain
      obtain ⟨⟨name, mark⟩, others⟩ := plain
      rw [List.cons_append, placeholdersFrom, if_neg name, if_neg fun both => mark both.1]
      exact ih others
  exact each a.toList plain

/-- A quoted name has no placeholder: the marks inside it are doubled, so it is open again after two of them. -/
theorem quote (name : String) : Asks 0 (Ident.quote name) := by
  intro rest
  have inner : ∀ cs : List Char,
      placeholdersFrom true (Ident.double '"' cs ++ '"' :: rest) = placeholdersFrom false rest := by
    intro cs
    induction cs with
    | nil => rfl
    | cons c cs ih =>
      rw [Ident.double]
      split
      · exact ih
      · next other =>
        rw [List.cons_append, placeholdersFrom, if_neg other, if_neg fun both => Bool.noConfusion both.2]
        exact ih
  rw [Ident.quote, Ident.enclose, String.toList_ofList, List.cons_append, List.cons_append, List.append_assoc,
    placeholdersFrom, if_pos rfl]
  exact inner name.toList

/-- Texts in a row ask for their parameters one after another. -/
theorem intercalate {α β : Type} (sep : String) (between : Asks 0 sep) {text : α → String} {params : α → List β}
    {xs : List α} (each : ∀ x ∈ xs, Asks (params x).length (text x)) :
    Asks (xs.flatMap params).length (sep.intercalate (xs.map text)) := by
  induction xs with
  | nil => exact fun rest => rfl
  | cons x xs ih =>
    have first := each x List.mem_cons_self
    have others := ih fun y mem => each y (List.mem_cons_of_mem _ mem)
    rw [List.flatMap_cons, List.length_append]
    cases xs with
    | nil => simpa using first
    | cons y rest =>
      rw [List.map_cons, List.map_cons, String.intercalate_cons_cons]
      exact (first.append between).append others

theorem names (names : List String) : Asks 0 (quotedNames names) := by
  have asks : Asks (names.flatMap fun _ => ([] : List Unit)).length (quotedNames names) :=
    intercalate ", " (.unmarked rfl) fun name _ => quote name
  rwa [List.flatMap_eq_nil_iff.2 fun _ _ => rfl] at asks

end Asks

end TreeStore.Sql

namespace TreeStore

open Sql

/-! ### Requests -/

def Operand.Plain (o : Operand) : Prop := ∀ type ∈ o.type?, Loader.isPlainType type = true

theorem Operand.Plain.of_untyped {o : Operand} (untyped : o.type? = none) : o.Plain := fun type cast => by
  rw [untyped] at cast
  cases cast

theorem isPlainType_unmarked {type : String} (plain : Loader.isPlainType type = true) : isUnmarked type = true := by
  refine List.all_eq_true.2 fun c mem => ?_
  have allowed := List.all_eq_true.1 (Bool.and_eq_true_iff.1 plain).2 c mem
  rw [Bool.and_eq_true_iff, bne_iff_ne, bne_iff_ne]
  constructor
  · rintro rfl
    revert allowed
    decide
  · rintro rfl
    revert allowed
    decide

theorem Operand.asks {o : Operand} (plain : o.Plain) : Asks 1 o.sql := by
  have mark : Asks 1 "?" := fun rest => rfl
  unfold Operand.sql
  cases typed : o.type? with
  | none => exact mark
  | some type =>
    have asks := (((((Asks.unmarked (a := "CAST(") rfl).append mark).append
      (Asks.unmarked (a := " AS ") rfl)).append (.unmarked (isPlainType_unmarked (plain type typed)))).append
        (Asks.unmarked (a := ")") rfl))
    exact asks

def Condition.operand? : Condition → Option Operand
  | .equals _ value => some value
  | .isNull _ => none

theorem Condition.asks {c : Condition} (plain : ∀ o ∈ c.operand?, o.Plain) : Asks c.param?.toList.length c.sql := by
  cases c with
  | equals column value =>
    have asks := ((Asks.quote column).append (.unmarked (a := " = ") rfl)).append
      (Operand.asks (plain value rfl))
    exact asks
  | isNull column => exact (Asks.quote column).append (.unmarked rfl)

theorem Selection.asks (s : Selection) : Asks 0 s.sql := by
  cases s with
  | all => exact .unmarked rfl
  | one => exact .unmarked rfl
  | columns names => exact .names names

/-- A query has a placeholder for every parameter. -/
theorem Select.asks {q : Select} (plain : ∀ c ∈ q.conditions, ∀ o ∈ c.operand?, o.Plain) :
    Asks q.params.length q.sql := by
  have conditions : Asks q.params.length
      (if q.conditions.isEmpty then "" else " WHERE " ++ " AND ".intercalate (q.conditions.map (·.sql))) := by
    have each := Asks.intercalate " AND " (.unmarked rfl) fun c mem => Condition.asks (plain c mem)
    rw [Select.params, List.filterMap_eq_flatMap_toList]
    cases none : q.conditions with
    | nil => exact fun rest => rfl
    | cons c others =>
      rw [none] at each
      have words : Asks 0 " WHERE " := .unmarked rfl
      have asks := words.append each
      rwa [Nat.zero_add] at asks
  have order : Asks 0 (if q.orderBy.isEmpty then "" else " ORDER BY " ++ quotedNames q.orderBy) := by
    split
    · exact fun rest => rfl
    · exact Asks.append (n := 0) (.unmarked rfl) (.names q.orderBy)
  have limit : Asks 0 (if q.firstOnly then " LIMIT 1" else "") := by
    split
    · exact .unmarked rfl
    · exact fun rest => rfl
  have head : Asks 0 ("SELECT " ++ q.selection.sql ++ " FROM " ++ Ident.quote q.table) :=
    (((Asks.unmarked (a := "SELECT ") rfl).append q.selection.asks).append
      (Asks.unmarked (a := " FROM ") rfl)).append (.quote q.table)
  have asks := ((head.append conditions).append order).append limit
  rwa [Nat.zero_add, Nat.add_zero] at asks

/-- An insertion has a placeholder for every parameter. -/
theorem Insert.asks {i : Insert} (plain : ∀ v ∈ i.values, v.2.Plain) : Asks i.params.length i.sql := by
  have values : Asks i.params.length (", ".intercalate (i.values.map (·.2.sql))) := by
    rw [Insert.params, List.map_eq_flatMap]
    exact .intercalate ", " (.unmarked rfl) fun v mem => Operand.asks (plain v mem)
  have head : Asks 0 ("INSERT INTO " ++ Ident.quote i.table ++ " (" ++ quotedNames (i.values.map (·.1)) ++
      ") VALUES (") :=
    ((((Asks.unmarked (a := "INSERT INTO ") rfl).append (.quote i.table)).append
      (Asks.unmarked (a := " (") rfl)).append (.names _)).append (.unmarked rfl)
  have asks := (head.append values).append (Asks.unmarked (a := ")") rfl)
  rwa [Nat.zero_add, Nat.add_zero] at asks

namespace Request

inductive Plain : Request → Prop
  | select {q : Select} (plain : ∀ c ∈ q.conditions, ∀ o ∈ c.operand?, o.Plain) : Plain (.select q)
  | insert {i : Insert} (plain : ∀ v ∈ i.values, v.2.Plain) : Plain (.insert i)
  | insertReturning {i : Insert} (plain : ∀ v ∈ i.values, v.2.Plain) : Plain (.insertReturning i)

theorem Plain.placeholders {r : Request} (plain : r.Plain) : placeholders r.sql = r.params.length := by
  cases plain with
  | select plain => exact (Select.asks plain).count
  | insert plain => exact (Insert.asks plain).count
  | insertReturning plain =>
    have asks := ((Insert.asks plain).append (Asks.unmarked (a := " RETURNING ") rfl)).append
      (.quote Schema.idColumn)
    exact asks.count

end Request

end TreeStore
