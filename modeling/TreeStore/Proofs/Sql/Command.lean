import TreeStore.Proofs.Sql.Token
import TreeStore.Store.Request

/-! Commands of SQL: creating sequences and tables, and inserting rows of texts. A script is read into
commands, which semicolons separate; the parts of a definition stand between commas outside parentheses. -/

namespace TreeStore.Sql

structure Definition where
  name : String
  columns : List Column := []
  primaryKey : List String := []
deriving DecidableEq, Repr

inductive Command where
  /-- Creates a sequence, unless it is there. -/
  | createSequence (name : String)
  | createTable (d : Definition)
  | insert (i : Insert)
deriving DecidableEq, Repr

/-- Tokens in parts: those of the first part, and the other parts. -/
abbrev Parts := List Token × List (List Token)

def Parts.all (ps : Parts) : List (List Token) := ps.1 :: ps.2

def Parts.after (ts : List Token) (ps : Parts) : Parts := (ts ++ ps.1, ps.2)

/-- The parts of what parentheses hold, up to the end; so many further ones are open. -/
def parts? (depth : Nat) : List Token → Option Parts
  | [] => none
  | t :: rest => match t, depth with
    | .close, 0 => if rest = [] then some ([], []) else none
    | .comma, 0 => (parts? 0 rest).map fun ps => ([], ps.all)
    | .open, d => (parts? (d + 1) rest).map (.after [.open])
    | .close, d + 1 => (parts? d rest).map (.after [.close])
    | t, d => (parts? d rest).map (.after [t])

/-- A list with commas up to a closing parenthesis, and what follows that. -/
def listed? (item? : Token → Option String) : List Token → Option (List String × List Token)
  | t :: .close :: rest => (item? t).map fun x => ([x], rest)
  | t :: .comma :: rest => do
    let x ← item? t
    let (xs, rest) ← listed? item? rest
    return (x :: xs, rest)
  | _ => none

def name? : Token → Option String
  | .name s => some s
  | _ => none

def literal? : Token → Option String
  | .literal s => some s
  | _ => none

def constrained? (c : Column) : List Token → Option Column
  | [] => some c
  | .word "PRIMARY" :: .word "KEY" :: rest => constrained? { c with primaryKey := true } rest
  | .word "NOT" :: .word "NULL" :: rest => constrained? { c with notNull := true } rest
  | .word "DEFAULT" :: .word "NEXTVAL" :: .open :: .literal s :: .close :: rest =>
    constrained? { c with default? := some (.next s) } rest
  | .word "REFERENCES" :: .name t :: .open :: .name key :: .close :: rest =>
    if key = Schema.idColumn then constrained? { c with references? := some t } rest else none
  | _ => none

/-- A definition with one part more: a column, or the key if there is none yet. -/
def addPart (d : Definition) : List Token → Option Definition
  | .name n :: .word type :: rest =>
    (constrained? { name := n, type } rest).map fun c => { d with columns := d.columns ++ [c] }
  | .word "PRIMARY" :: .word "KEY" :: .open :: rest => match listed? name? rest with
    | some (key, []) => if d.primaryKey = [] then some { d with primaryKey := key } else none
    | _ => none
  | _ => none

def insertion? (table : String) (rest : List Token) : Option Insert :=
  match listed? name? rest with
  | some (columns, .word "VALUES" :: .open :: rest) => match listed? literal? rest with
    | some (values, []) =>
      if columns.length = values.length then
        some { table, values := columns.zip (values.map fun v => { param := .text v }) }
      else none
    | _ => none
  | _ => none

def command? : List Token → Option Command
  | [.word "CREATE", .word "SEQUENCE", .word "IF", .word "NOT", .word "EXISTS", .name n] =>
    some (.createSequence n)
  | .word "CREATE" :: .word "TABLE" :: .name n :: .open :: rest => do
    let parts ← parts? 0 rest
    return .createTable (← parts.all.foldlM addPart { name := n })
  | .word "INSERT" :: .word "INTO" :: .name t :: .open :: rest => (insertion? t rest).map .insert
  | _ => none

def sentences : List Token → Parts
  | [] => ([], [])
  | .semicolon :: rest => ([], (sentences rest).all)
  | t :: rest => (sentences rest).after [t]

def pieces (ts : List Token) : List (List Token) := (sentences ts).all.filter (!·.isEmpty)

def commandsOf? (ts : List Token) : Option (List Command) :=
  ((sentences ts).all.filter (!·.isEmpty)).mapM command?

def commands? (script : String) : Option (List Command) := tokens? script >>= commandsOf?

def pieces? (script : String) : Option (List (List Token)) := (tokens? script).map pieces

/-! ### Lists and parts -/

theorem listed_eq {item? : Token → Option String} (token : String → Token)
    (read : ∀ x, item? (token x) = some x) {xs : List String} (nonempty : xs ≠ []) (rest : List Token) :
    listed? item? ([.comma].intercalate (xs.map fun x => [token x]) ++ .close :: rest) = some (xs, rest) := by
  induction xs with
  | nil => exact absurd rfl nonempty
  | cons x xs ih =>
    cases xs with
    | nil => simp [listed?, read]
    | cons y ys =>
      have tail := ih (by simp)
      rw [List.map_cons] at tail
      rw [List.map_cons, List.map_cons, List.intercalate_cons_cons, List.append_assoc, List.append_assoc,
        List.singleton_append, List.singleton_append, listed?, read, tail]
      rfl

theorem Parts.after_comp (ts us : List Token) : Parts.after ts ∘ Parts.after us = Parts.after (ts ++ us) := by
  funext ps
  simp [Parts.after]

/-- Tokens that stand in one part of one sentence: no comma is outside parentheses, and these are closed
again. -/
structure Whole (ts : List Token) : Prop where
  sentence : .semicolon ∉ ts
  part : ∀ depth rest, parts? depth (ts ++ rest) = (parts? depth rest).map (.after ts)

theorem Whole.nil : Whole [] where
  sentence := List.not_mem_nil
  part depth rest := by simp [show Parts.after [] = id from rfl]

theorem Whole.append {ts us : List Token} (first : Whole ts) (second : Whole us) : Whole (ts ++ us) where
  sentence mem := (List.mem_append.1 mem).elim first.sentence second.sentence
  part depth rest := by
    rw [List.append_assoc, first.part, second.part, Option.map_map, Parts.after_comp]

theorem Whole.flatten {tss : List (List Token)} (each : ∀ ts ∈ tss, Whole ts) : Whole tss.flatten := by
  induction tss with
  | nil => exact .nil
  | cons ts rest ih =>
    rw [List.flatten_cons]
    exact (each ts List.mem_cons_self).append (ih fun us hu => each us (List.mem_cons_of_mem _ hu))

def Token.IsAtom : Token → Prop
  | .word _ | .name _ | .literal _ => True
  | _ => False

theorem Whole.atom {t : Token} (atom : t.IsAtom) : Whole [t] where
  sentence mem := by
    obtain rfl := List.mem_singleton.1 mem
    exact atom
  part depth rest := by cases t <;> first | rfl | exact atom.elim

theorem Whole.atoms {ts : List Token} (atoms : ∀ t ∈ ts, t.IsAtom) : Whole ts := by
  induction ts with
  | nil => exact .nil
  | cons t us ih =>
    obtain ⟨first, others⟩ := List.forall_mem_cons.1 atoms
    exact (Whole.atom first).append (ih others)

/-- What parentheses hold stands in one part, its commas included. -/
theorem Whole.enclosed {ts : List Token} (inner : ∀ t ∈ ts, t.IsAtom ∨ t = .comma) :
    Whole (.open :: ts ++ [.close]) := by
  -- Inside, the depth is not zero, and a comma is a token like any other.
  have inside : ∀ depth rest, parts? (depth + 1) (ts ++ rest) = (parts? (depth + 1) rest).map (.after ts) := by
    intro depth rest
    induction ts with
    | nil => exact Whole.nil.part (depth + 1) rest
    | cons t us ih =>
      obtain ⟨here, others⟩ := List.forall_mem_cons.1 inner
      have first : parts? (depth + 1) (t :: (us ++ rest)) =
          (parts? (depth + 1) (us ++ rest)).map (.after [t]) := by
        rcases here with atom | rfl
        · exact (Whole.atom atom).part (depth + 1) (us ++ rest)
        · rfl
      rw [List.cons_append, first, ih others, Option.map_map, Parts.after_comp]
      rfl
  constructor
  · intro mem
    rcases List.mem_append.1 mem with mem | mem
    · rcases inner _ ((List.mem_cons.1 mem).resolve_left nofun) with atom | comma
      · exact atom
      · cases comma
    · exact absurd (List.mem_singleton.1 mem) nofun
  · intro depth rest
    have opened : parts? depth (.open :: (ts ++ .close :: rest)) =
        (parts? (depth + 1) (ts ++ .close :: rest)).map (.after [.open]) := by rw [parts?]
    have closed : parts? (depth + 1) (.close :: rest) = (parts? depth rest).map (.after [.close]) := by
      rw [parts?]
    rw [show .open :: ts ++ [.close] ++ rest = .open :: (ts ++ .close :: rest) by simp, opened, inside, closed,
      Option.map_map, Option.map_map, Parts.after_comp, Parts.after_comp]
    rfl

theorem parts_intercalate {tss : List (List Token)} (nonempty : tss ≠ []) (each : ∀ ts ∈ tss, Whole ts) :
    ∃ ps, parts? 0 ([.comma].intercalate tss ++ [.close]) = some ps ∧ ps.all = tss := by
  induction tss with
  | nil => exact absurd rfl nonempty
  | cons ts rest ih =>
    obtain ⟨first, others⟩ := List.forall_mem_cons.1 each
    cases rest with
    | nil => exact ⟨(ts, []), by rw [List.intercalate_singleton, first.part]; simp [parts?, Parts.after], rfl⟩
    | cons us rest =>
      obtain ⟨ps, eq, all⟩ := ih (by simp) others
      refine ⟨(ts, ps.all), ?_, by rw [all]; rfl⟩
      rw [List.intercalate_cons_cons, List.append_assoc, List.append_assoc, first.part]
      simp [parts?, eq, Parts.after]

theorem mem_intercalate {sep : List Token} {tss : List (List Token)} {t : Token}
    (mem : t ∈ sep.intercalate tss) : t ∈ sep ∨ ∃ ts ∈ tss, t ∈ ts := by
  induction tss with
  | nil => cases mem
  | cons ts rest ih =>
    cases rest with
    | nil => exact .inr ⟨ts, List.mem_cons_self, by simpa using mem⟩
    | cons us rest =>
      rw [List.intercalate_cons_cons, List.mem_append, List.mem_append] at mem
      rcases mem with (own | between) | later
      · exact .inr ⟨ts, List.mem_cons_self, own⟩
      · exact .inl between
      · exact (ih later).imp_right fun ⟨vs, listed, own⟩ => ⟨vs, List.mem_cons_of_mem _ listed, own⟩

/-! ### Scripts -/

theorem sentences_append {ts : List Token} (inside : .semicolon ∉ ts) (rest : List Token) :
    sentences (ts ++ rest) = (sentences rest).after ts := by
  induction ts with
  | nil => rfl
  | cons t us ih =>
    obtain ⟨first, others⟩ := not_or.1 (mt List.mem_cons.2 inside)
    have head : sentences (t :: (us ++ rest)) = (sentences (us ++ rest)).after [t] := by
      cases t <;> first | rfl | exact absurd rfl first
    rw [List.cons_append, head, ih others]
    exact congrFun (Parts.after_comp [t] us) _

theorem sentences_semicolon (ts us : List Token) :
    (sentences (ts ++ .semicolon :: us)).all = (sentences ts).all ++ (sentences us).all := by
  induction ts with
  | nil => rfl
  | cons t ts ih =>
    rcases eq_or_ne t .semicolon with rfl | other
    · exact congrArg ([] :: ·) ih
    · have single : .semicolon ∉ [t] := fun mem => other (List.mem_singleton.1 mem).symm
      have first (rest : List Token) : (sentences (t :: rest)).all =
          (t :: (sentences rest).1) :: (sentences rest).2 := by
        rw [← List.singleton_append, sentences_append single]
        rfl
      obtain ⟨head, tail⟩ := List.cons.inj ih
      rw [List.cons_append, first, first, head, tail]
      rfl

/-- A semicolon ends what stands before it, and something new begins after it. -/
theorem pieces_semicolon (ts us : List Token) : pieces (ts ++ .semicolon :: us) = pieces ts ++ pieces us := by
  rw [pieces, sentences_semicolon, List.filter_append, pieces, pieces]

theorem pieces_sentence {ts : List Token} (nonempty : ts ≠ []) (inside : .semicolon ∉ ts) : pieces ts = [ts] := by
  have one := sentences_append inside []
  rw [List.append_nil] at one
  rw [pieces, one]
  simp [sentences, Parts.after, Parts.all, nonempty]

theorem commands_of_pieces {script : String} {pss : List (List Token)} (split : pieces? script = some pss) :
    commands? script = pss.mapM command? := by
  obtain ⟨ts, tokens, rfl⟩ := Option.map_eq_some_iff.1 split
  rw [commands?, tokens]
  rfl

end TreeStore.Sql
