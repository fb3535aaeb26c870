import Mathlib.Data.List.Forall2
import TreeStore.ScalarKind
import TreeStore.Schema.Sql

/-! SQL text as tokens, read one character at a time. Whatever a quoted name or literal holds, its marks
doubled, it is one token; so the tokens of a text made up of quoted parts and fixed ones can be told part
by part. -/

namespace TreeStore.Sql

inductive Token where
  /-- A word without marks around it, in capitals. -/
  | word (s : String)
  | name (s : String)
  | literal (s : String)
  | «open»
  | close
  | comma
  | semicolon
deriving DecidableEq, Repr

inductive Quoted where
  | name
  | literal
deriving DecidableEq, Repr

def Quoted.mark : Quoted → Char
  | .name => '"'
  | .literal => '\''

def Quoted.token : Quoted → String → Token
  | .name => .name
  | .literal => .literal

/-- What has been read of a token that may go on, the last character first. -/
inductive Pending where
  | nothing
  | word (cs : List Char)
  | quoted (q : Quoted) (cs : List Char)
  /-- After a mark, which is the end unless another one follows. -/
  | closed (q : Quoted) (cs : List Char)
deriving DecidableEq, Repr

namespace Pending

/-- The tokens that there are if the text ends here; a mark must not be missing. -/
def end? : Pending → Option (List Token)
  | .nothing => some []
  | .word cs => some [.word (String.ofList cs.reverse)]
  | .quoted _ _ => none
  | .closed q cs => some [q.token (String.ofList cs.reverse)]

def extend? : Pending → Char → Option Pending
  | .nothing, _ => none
  | .word cs, c => if Ident.isPart c then some (.word (c.toUpper :: cs)) else none
  | .quoted q cs, c => some (if c = q.mark then .closed q cs else .quoted q (c :: cs))
  | .closed q cs, c => if c = q.mark then some (.quoted q (c :: cs)) else none

end Pending

def start? (c : Char) : Option (List Token × Pending) :=
  match c with
  | '(' => some ([.open], .nothing)
  | ')' => some ([.close], .nothing)
  | ',' => some ([.comma], .nothing)
  | ';' => some ([.semicolon], .nothing)
  | '"' => some ([], .quoted .name [])
  | '\'' => some ([], .quoted .literal [])
  | c =>
    if Text.isBlankChar c then some ([], .nothing)
    else if Ident.isStart c then some ([], .word [c.toUpper])
    else none

def step (p : Pending) (c : Char) : Option (List Token × Pending) :=
  match p.extend? c with
  | some p => some ([], p)
  | none => do
    let done ← p.end?
    let (ts, p) ← start? c
    return (done ++ ts, p)

/-- Reads characters, from and up to a token that may go on. -/
def feed : Pending → List Char → Option (List Token × Pending)
  | p, [] => some ([], p)
  | p, c :: rest => do
    let (ts, p) ← step p c
    let (ts', p) ← feed p rest
    return (ts ++ ts', p)

def tokens? (text : String) : Option (List Token) := do
  let (ts, p) ← feed .nothing text.toList
  return ts ++ (← p.end?)

theorem feed_append (p : Pending) (a b : List Char) :
    feed p (a ++ b) = (feed p a).bind fun r => (feed r.2 b).map fun r' => (r.1 ++ r'.1, r'.2) := by
  induction a generalizing p with
  | nil => cases h : feed p b <;> simp [feed, h]
  | cons c rest ih =>
    simp only [List.cons_append, feed, ih, Option.bind_eq_bind, Option.bind_assoc, Option.pure_def]
    cases step p c with
    | none => rfl
    | some r =>
      simp only [Option.bind_some]
      cases feed r.2 rest with
      | none => rfl
      | some r' =>
        simp only [Option.bind_some]
        cases feed r'.2 b <;> simp

/-! ### Texts and their tokens -/

/-- A text has some tokens, and whatever follows it begins anew. -/
def Opens (text : String) (ts : List Token) : Prop := feed .nothing text.toList = some (ts, .nothing)

/-- A text has some tokens, if what follows it does not go on with the last of them. -/
def Reads (text : String) (ts : List Token) : Prop :=
  ∃ before p last, feed .nothing text.toList = some (before, p) ∧ p.end? = some last ∧ before ++ last = ts

def apart (text : String) : Bool :=
  match text.toList with
  | [] => false
  | c :: _ => !Ident.isPart c && c != '"' && c != '\''

variable {a b : String} {ts us : List Token}

theorem Opens.nil : Opens "" [] := rfl

theorem Opens.append (first : Opens a ts) (second : Opens b us) : Opens (a ++ b) (ts ++ us) := by
  rw [Opens, String.toList_append, feed_append, first, Option.bind_some, second, Option.map_some]

theorem Opens.reads (first : Opens a ts) (second : Reads b us) : Reads (a ++ b) (ts ++ us) := by
  obtain ⟨before, p, last, fed, ended, rfl⟩ := second
  refine ⟨ts ++ before, p, last, ?_, ended, List.append_assoc ..⟩
  rw [String.toList_append, feed_append, first, Option.bind_some, fed, Option.map_some]

theorem Opens.toReads (text : Opens a ts) : Reads a ts := ⟨ts, .nothing, [], text, rfl, List.append_nil ts⟩

theorem step_apart {p : Pending} {last : List Token} (ended : p.end? = some last) {c : Char}
    (part : Ident.isPart c = false) (name : c ≠ '"') (literal : c ≠ '\'') :
    step p c = (step .nothing c).map fun r => (last ++ r.1, r.2) := by
  have stops : p.extend? c = none := by
    cases p with
    | nothing => rfl
    | word cs => simp [Pending.extend?, part]
    | quoted q cs => cases ended
    | closed q cs => cases q <;> simp [Pending.extend?, Quoted.mark, name, literal]
  rw [step, stops, ended]
  cases h : start? c <;> simp [step, Pending.extend?, Pending.end?, h]

theorem Reads.opens (first : Reads a ts) (begun : apart b = true) (second : Opens b us) :
    Opens (a ++ b) (ts ++ us) := by
  obtain ⟨before, p, last, fed, ended, rfl⟩ := first
  obtain ⟨c, rest, eq, part, name, literal⟩ : ∃ c rest, b.toList = c :: rest ∧ Ident.isPart c = false ∧
      c ≠ '"' ∧ c ≠ '\'' := by
    unfold apart at begun
    split at begun
    · cases begun
    · next c rest eq =>
      simp only [Bool.and_eq_true, Bool.not_eq_true', bne_iff_ne] at begun
      exact ⟨c, rest, eq, begun.1.1, begun.1.2, begun.2⟩
  rw [Opens, eq, feed] at second
  rw [Opens, String.toList_append, feed_append, fed, Option.bind_some, eq, feed,
    step_apart ended part name literal]
  cases h : step .nothing c with
  | none => simp [h] at second
  | some r =>
    cases h' : feed r.2 rest with
    | none => simp [h, h'] at second
    | some r' =>
      simp only [h, h', Option.bind_eq_bind, Option.bind_some, Option.pure_def, Option.some.injEq,
        Prod.mk.injEq] at second
      simp [h', ← second.1, second.2]

theorem Opens.tokens (text : Opens a ts) : tokens? a = some ts := by
  rw [tokens?, text]
  simp [Pending.end?]

/-- Parts with a separator between them. -/
theorem Opens.between {sep : String} {between : List Token} (opens : Opens sep between)
    (begun : apart sep = true)
    {texts : List String} {parts : List (List Token)} (nonempty : texts ≠ [])
    (each : List.Forall₂ Reads texts parts) :
    Reads (sep.intercalate texts) (between.intercalate parts) := by
  induction each with
  | nil => exact absurd rfl nonempty
  | @cons text part texts parts first rest ih =>
    cases rest with
    | nil => simpa using first
    | cons second rest =>
      rw [String.intercalate_cons_cons, List.intercalate_cons_cons]
      exact (first.opens begun opens).reads (ih (by simp))

/-! ### Quoted parts -/

theorem feed_double (q : Quoted) (cs s : List Char) :
    feed (.quoted q cs) (Ident.double q.mark s ++ [q.mark]) = some ([], .closed q (s.reverse ++ cs)) := by
  induction s generalizing cs with
  | nil => simp [Ident.double, feed, step, Pending.extend?]
  | cons c rest ih =>
    rw [Ident.double]
    -- Of a doubled mark the first one closes the token, and the second one opens it again.
    split
    · next mark => simp [mark, feed, step, Pending.extend?, ih]
    · next other => simp [other, feed, step, Pending.extend?, ih]

/-- A text between marks is one token, whatever it holds. -/
theorem Reads.enclose (q : Quoted) (s : String) : Reads (Ident.enclose q.mark s) [q.token s] := by
  have begun : step .nothing q.mark = some ([], .quoted q []) := by cases q <;> rfl
  refine ⟨[], .closed q s.toList.reverse, [q.token s], ?_, ?_, rfl⟩
  · rw [Ident.enclose, String.toList_ofList, List.cons_append, feed, begun]
    simp [feed_double]
  · simp [Pending.end?]

theorem Reads.quote (name : String) : Reads (Ident.quote name) [.name name] := .enclose .name name

theorem Reads.quoteLiteral (value : String) : Reads (Ident.quoteLiteral value) [.literal value] :=
  .enclose .literal value

theorem Reads.columnType (kind : ScalarKind) : Reads kind.columnType [.word kind.columnType] := by
  cases kind <;> exact ⟨[], _, _, rfl, rfl, rfl⟩

/-- Tokens with a comma and a blank between their texts. -/
theorem Reads.listed {text : String → String} {token : String → Token} (each : ∀ x, Reads (text x) [token x])
    {xs : List String} (nonempty : xs ≠ []) :
    Reads (", ".intercalate (xs.map text)) ([.comma].intercalate (xs.map fun x => [token x])) := by
  have opens : Opens ", " [.comma] := rfl
  refine opens.between rfl (by simpa) ?_
  rw [List.forall₂_map_left_iff, List.forall₂_map_right_iff, List.forall₂_same]
  exact fun x _ => each x

end TreeStore.Sql
