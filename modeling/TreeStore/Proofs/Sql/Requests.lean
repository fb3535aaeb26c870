import Mathlib.Data.List.Basic
import TreeStore.Proofs.Sql.Placeholders
import TreeStore.Store.Registry

/-! Requests read back from what a store is sent: the method, the SQL text and the parameters. The text is read from left
to right, and every question mark in it stands for the next parameter. So no two requests are sent alike. -/

namespace TreeStore

namespace Sql

structure Sent where
  text : List Char
  params : List Param
deriving DecidableEq

abbrev Reader := StateT Sent Option

namespace Reader

variable {α β : Type}

def ofText (read : List Char → Option (α × List Char)) : Reader α := fun s =>
  (read s.text).map fun r => (r.1, { s with text := r.2 })

def literal (s : String) : Reader Unit := ofText fun cs => (cs.dropPrefix? s.toList).map ((), ·)

/-- Whether a text is there; it is passed over then. -/
def given (s : String) : Reader Bool := ofText fun cs =>
  match cs.dropPrefix? s.toList with
  | some rest => some (true, rest)
  | none => some (false, cs)

/-- Reads on in a name, after its first mark. Of marks inside the name there are two each. -/
def nameFrom (read : List Char) : List Char → Option (String × List Char)
  | '"' :: '"' :: rest => nameFrom ('"' :: read) rest
  | '"' :: rest => some (.ofList read.reverse, rest)
  | c :: rest => nameFrom (c :: read) rest
  | [] => none

def name : Reader String := do
  literal "\""
  ofText (nameFrom [])

/-- Reads a type up to the bracket that closes the cast, with so many brackets open inside it. -/
def typeFrom (opened : Nat) (read : List Char) : List Char → Option (String × List Char)
  | [] => none
  | c :: rest =>
    if c = '(' then typeFrom (opened + 1) (c :: read) rest
    else if c = ')' then
      match opened with
      | 0 => some (.ofList read.reverse, rest)
      | opened + 1 => typeFrom opened (c :: read) rest
    else typeFrom opened (c :: read) rest

def next : Reader Param := fun s =>
  match s.params with
  | p :: params => some (p, { s with params })
  | [] => none

def param : Reader Param := do
  literal "?"
  next

def operand : Reader Operand := do
  if ← given "CAST(" then
    let param ← param
    literal " AS "
    return { param, type? := some (← ofText (typeFrom 0 [])) }
  else return { param := ← param }

def parts (sep : String) (part : Reader α) (s : Sent) : Option (List α × Sent) :=
  match part s with
  | none => none
  | some (x, s') =>
    match s'.text.dropPrefix? sep.toList with
    | none => some ([x], s')
    | some rest =>
      if rest.length < s.text.length then
        (parts sep part { s' with text := rest }).map fun r => (x :: r.1, r.2)
      else none
termination_by s.text.length

def filled (part : Reader α) : Reader (List α) := do
  let xs ← parts ", " part
  literal ")"
  return xs

def bracketed (part : Reader α) : Reader (List α) := do
  literal "("
  if ← given ")" then return [] else filled part

def clause (word : String) (r : Reader (List α)) : Reader (List α) := do
  if ← given word then r else return []

def names : Reader (List String) := parts ", " name

def comparison (column : String) : Reader Condition := do
  literal " = "
  return .equals column (← operand)

def condition : Reader Condition := do
  let column ← name
  if ← given " IS NULL" then return .isNull column else comparison column

def columns : Reader Selection := do
  if ← given "1" then return .one else return .columns (← names)

def selection : Reader Selection := do
  if ← given "*" then return .all else columns

def select : Reader Select := do
  literal "SELECT "
  let selection ← selection
  literal " FROM "
  let table ← name
  let conditions ← clause " WHERE " (parts " AND " condition)
  let orderBy ← clause " ORDER BY " names
  let firstOnly ← given " LIMIT 1"
  return { selection, table, conditions, orderBy, firstOnly }

def row (table : String) (columns : List String) (operands : List Operand) : Reader Insert :=
  if columns.length = operands.length then pure { table, values := columns.zip operands } else failure

def insert : Reader Insert := do
  literal "INSERT INTO "
  let table ← name
  literal " "
  let columns ← bracketed name
  literal " VALUES "
  let operands ← bracketed operand
  row table columns operands

def insertReturning : Reader Insert := do
  let i ← insert
  literal (" RETURNING " ++ Ident.quote Schema.idColumn)
  return i

/-- Reads a whole text, for which there are just enough parameters. -/
def whole? (r : Reader α) (text : String) (params : List Param) : Option α :=
  match r ⟨text.toList, params⟩ with
  | some (x, ⟨[], []⟩) => some x
  | _ => none

end Reader

/-! ### What can be read back -/

/-- How many brackets are open at the end of a text, unless one is closed that is not open. -/
def bracketsAfter (opened : Nat) : List Char → Option Nat
  | [] => some opened
  | c :: rest =>
    if c = '(' then bracketsAfter (opened + 1) rest
    else if c = ')' then
      match opened with
      | 0 => none
      | opened + 1 => bracketsAfter opened rest
    else bracketsAfter opened rest

end Sql

def Operand.Balanced (o : Operand) : Prop := ∀ type ∈ o.type?, Sql.bracketsAfter 0 type.toList = some 0

theorem Operand.Balanced.of_untyped {o : Operand} (untyped : o.type? = none) : o.Balanced := fun type cast => by
  rw [untyped] at cast
  cases cast

namespace Select

def whereSql (q : Select) : String :=
  if q.conditions.isEmpty then "" else " WHERE " ++ " AND ".intercalate (q.conditions.map (·.sql))

def orderSql (q : Select) : String := if q.orderBy.isEmpty then "" else " ORDER BY " ++ quotedNames q.orderBy

def limitSql (q : Select) : String := if q.firstOnly then " LIMIT 1" else ""

theorem sql_eq (q : Select) : q.sql = "SELECT " ++ (q.selection.sql ++ (" FROM " ++ (Ident.quote q.table ++
    (q.whereSql ++ (q.orderSql ++ q.limitSql))))) := by
  delta sql whereSql orderSql limitSql
  simp only [String.append_assoc]

end Select

namespace Sql.Reader

variable {α β : Type}

/-! ### What readers take -/

theorem dropPrefix?_own (cs rest : List Char) : (cs ++ rest).dropPrefix? cs = some rest :=
  List.dropPrefix?_append_of_beq rest (by simp)

/-- A reader takes a text and some parameters for something, if what follows the text is as it is to be. -/
def Takes (follows : List Char → Prop) (r : Reader α) (text : String) (params : List Param) (x : α) : Prop :=
  ∀ rest more, follows rest → r ⟨text.toList ++ rest, params ++ more⟩ = some (x, ⟨rest, more⟩)

namespace Takes

variable {after mid : List Char → Prop} {r : Reader α} {f : α → Reader β} {a b : String} {ps qs : List Param} {x : α}
  {y : β}

theorem weaken (takes : Takes mid r a ps x) (sub : ∀ rest, after rest → mid rest) : Takes after r a ps x :=
  fun rest more ok => takes rest more (sub rest ok)

theorem anywhere (takes : Takes (fun _ => True) r a ps x) : Takes after r a ps x := takes.weaken fun _ _ => trivial

theorem pure (x : α) : Takes after (Pure.pure x) "" [] x := fun _ _ _ => rfl

theorem bind (first : Takes mid r a ps x) (second : Takes after (f x) b qs y)
    (ok : ∀ rest, after rest → mid (b.toList ++ rest)) : Takes after (r >>= f) (a ++ b) (ps ++ qs) y := by
  intro rest more follows
  have one := first (b.toList ++ rest) (qs ++ more) (ok rest follows)
  have two := second rest more follows
  rw [String.toList_append, List.append_assoc, List.append_assoc]
  change (r ⟨_, _⟩ >>= fun t => f t.1 t.2) = _
  rw [one]
  exact two

/-- It does not matter to the first reader what follows. -/
theorem andThen (first : Takes (fun _ => True) r a ps x) (second : Takes after (f x) b qs y) :
    Takes after (r >>= f) (a ++ b) (ps ++ qs) y := first.bind second fun _ _ => trivial

/-- What is read last may still be put into another form. -/
theorem last (first : Takes after r a ps x) (last : f x = Pure.pure y) : Takes after (r >>= f) a ps y := by
  intro rest more follows
  have one := first rest more follows
  change (r ⟨_, _⟩ >>= fun t => f t.1 t.2) = _
  rw [one]
  change f x _ = _
  rw [last]
  rfl

/-- Nothing is read at first. -/
theorem skip (first : Takes mid r "" [] x) (second : Takes after (f x) b qs y)
    (ok : ∀ rest, after rest → mid (b.toList ++ rest)) : Takes after (r >>= f) b qs y := by
  have takes := first.bind second ok
  rwa [String.empty_append, List.nil_append] at takes

theorem ofText {read : List Char → Option (α × List Char)}
    (reads : ∀ rest, after rest → read (a.toList ++ rest) = some (x, rest)) : Takes after (ofText read) a [] x := by
  intro rest more follows
  simp [Reader.ofText, reads rest follows]

theorem literal (s : String) : Takes (fun _ => True) (literal s) s [] () := by
  refine ofText fun rest _ => ?_
  rw [dropPrefix?_own, Option.map_some]

theorem given (s : String) : Takes (fun _ => True) (given s) s [] true := by
  refine ofText fun rest _ => ?_
  rw [dropPrefix?_own]

theorem missing (s : String) : Takes (fun rest => rest.dropPrefix? s.toList = none) (Reader.given s) "" [] false := by
  refine ofText fun rest absent => ?_
  rw [String.toList_empty, List.nil_append, absent]

theorem parts {part : Reader α} {sep : String} (mark : sep ≠ "") (go : ∀ rest, mid (sep.toList ++ rest))
    {text : α → String} {params : α → List Param} {xs : List α} (nonempty : xs ≠ [])
    (each : ∀ x ∈ xs, Takes mid part (text x) (params x) x) :
    Takes (fun rest => mid rest ∧ rest.dropPrefix? sep.toList = none) (parts sep part)
      (sep.intercalate (xs.map text)) (xs.flatMap params) xs := by
  induction xs with
  | nil => exact absurd rfl nonempty
  | cons x xs ih =>
    intro rest more ⟨follows, absent⟩
    obtain ⟨first, others⟩ := List.forall_mem_cons.1 each
    cases xs with
    | nil =>
      have one := first rest more follows
      rw [Reader.parts]
      simp [one, absent]
    | cons y ys =>
      have two := ih (by simp) others rest more ⟨follows, absent⟩
      generalize others' : sep.intercalate ((y :: ys).map text) = tail at two
      have one := first (sep.toList ++ (tail.toList ++ rest)) ((y :: ys).flatMap params ++ more) (go _)
      -- A separator has been passed over, so less is left than at first.
      have shorter : (tail.toList ++ rest).length <
          ((text x).toList ++ (sep.toList ++ (tail.toList ++ rest))).length := by
        have positive : 0 < sep.toList.length := List.length_pos_iff.2 (by simpa using mark)
        simp only [List.length_append] at positive ⊢
        omega
      have whole : sep.intercalate ((x :: y :: ys).map text) = text x ++ (sep ++ tail) := by
        rw [List.map_cons, List.map_cons, String.intercalate_cons_cons, ← others', List.map_cons, String.append_assoc]
      rw [whole, List.flatMap_cons, String.toList_append, String.toList_append, List.append_assoc, List.append_assoc,
        List.append_assoc, Reader.parts, one]
      simp only [dropPrefix?_own, if_pos shorter, two, Option.map_some]

theorem bracketed {part : Reader α} (go : ∀ rest, mid (", ".toList ++ rest)) (ends : ∀ rest, mid (")".toList ++ rest))
    {text : α → String} {params : α → List Param} {xs : List α} (each : ∀ x ∈ xs, Takes mid part (text x) (params x) x)
    (opens : ∀ x ∈ xs, ∀ rest, ((text x).toList ++ rest).dropPrefix? ")".toList = none) :
    Takes (fun _ => True) (bracketed part) ("(" ++ (", ".intercalate (xs.map text) ++ ")")) (xs.flatMap params) xs := by
  cases xs with
  | nil =>
    have closed : Takes (fun _ => True) (Reader.bracketed part) ("(" ++ ")") [] [] := by
      refine (literal "(").andThen ?_
      exact (given ")").last rfl
    simpa using closed
  | cons x xs =>
    have begun : ∀ rest,
        ((", ".intercalate ((x :: xs).map text) ++ ")").toList ++ rest).dropPrefix? ")".toList = none := by
      intro rest
      cases xs with
      | nil => simpa [List.append_assoc] using opens x List.mem_cons_self (')' :: rest)
      | cons y ys =>
        rw [List.map_cons, List.map_cons, String.intercalate_cons_cons, String.append_assoc, String.append_assoc,
          String.toList_append, List.append_assoc]
        exact opens x List.mem_cons_self _
    have filled : Takes (fun _ => True) (Reader.filled part) (", ".intercalate ((x :: xs).map text) ++ ")")
        ((x :: xs).flatMap params ++ []) (x :: xs) := by
      refine (parts (by decide) go (List.cons_ne_nil x xs) each).bind ?_ fun rest _ => ⟨ends rest, rfl⟩
      exact (literal ")").last rfl
    rw [List.append_nil] at filled
    refine (literal "(").andThen ?_
    exact (missing ")").skip filled fun rest _ => begun rest

/-- A clause is left out if there is nothing in it. -/
theorem clause {word body : String} {r : Reader (List α)} {xs : List α} (there : xs ≠ [] → Takes after r body ps xs)
    (noParams : xs = [] → ps = []) (absent : ∀ rest, after rest → rest.dropPrefix? word.toList = none) :
    Takes after (clause word r) (if xs.isEmpty then "" else word ++ body) ps xs := by
  cases xs with
  | nil =>
    obtain rfl := noParams rfl
    exact ((missing word).weaken absent).bind (b := "") (.pure []) fun _ ok => ok
  | cons x xs => exact (given word).andThen (there (by simp))

theorem whole (takes : Takes (· = []) r a ps x) : whole? r a ps = some x := by
  have read := takes [] [] rfl
  rw [List.append_nil, List.append_nil] at read
  rw [whole?, read]

/-! ### Names, operands and conditions -/

def Apart (rest : List Char) : Prop := rest.head? ≠ some '"'

theorem nameFrom_double {rest : List Char} (apart : Apart rest) (read cs : List Char) :
    nameFrom read (Ident.double '"' cs ++ '"' :: rest) = some (.ofList (read.reverse ++ cs), rest) := by
  induction cs generalizing read with
  | nil =>
    cases rest with
    | nil => simp [Ident.double, nameFrom]
    | cons c rest =>
      have other : c ≠ '"' := by simpa [Apart] using apart
      simp [Ident.double, nameFrom, other]
  | cons c cs ih =>
    rw [Ident.double]
    split
    · next mark => simp [nameFrom, ih, mark]
    · next other => simp [nameFrom, ih, other]

/-- Neither a mark nor a comma follows if a text does that begins otherwise. -/
theorem apart_append {a b : String} {c : Char} {word : List Char} (begun : a.toList = c :: word) (mark : c ≠ '"')
    (comma : c ≠ ',') (rest : List Char) :
    Apart ((a ++ b).toList ++ rest) ∧ ((a ++ b).toList ++ rest).dropPrefix? ", ".toList = none := by
  rw [String.toList_append, begun]
  simp [Apart, List.dropPrefix?, mark, comma]

theorem name (n : String) : Takes Apart name (Ident.quote n) [] n := by
  have inner : Takes Apart (Reader.ofText (nameFrom [])) (.ofList (Ident.double '"' n.toList ++ ['"'])) [] n := by
    refine ofText fun rest apart => ?_
    simpa using nameFrom_double apart [] n.toList
  have text : Ident.quote n = "\"" ++ .ofList (Ident.double '"' n.toList ++ ['"']) := by
    rw [← String.toList_inj]
    simp [Ident.quote, Ident.enclose]
  rw [text]
  exact (literal "\"").andThen inner

theorem param (p : Param) : Takes (fun _ => True) param "?" [p] p := by
  have next : Takes (fun _ => True) next "" [p] p := fun rest more _ => rfl
  have takes : Takes (fun _ => True) Reader.param ("?" ++ "") [p] p := (literal "?").andThen next
  rwa [String.append_empty] at takes

theorem typeFrom_brackets {opened left : Nat} {cs : List Char} (balanced : bracketsAfter opened cs = some left)
    (read rest : List Char) : typeFrom opened read (cs ++ rest) = typeFrom left (cs.reverse ++ read) rest := by
  fun_induction bracketsAfter opened cs generalizing read with
  | case1 =>
    cases balanced
    rfl
  | case2 opened cs ih => simp [typeFrom, ih balanced]
  | case3 => cases balanced
  | case4 cs _ opened ih => simp [typeFrom, ih balanced]
  | case5 opened c cs other bracket ih => simp [typeFrom, other, bracket, ih balanced]

theorem operand {o : Operand} (balanced : o.Balanced) : Takes (fun _ => True) operand o.sql [o.param] o := by
  obtain ⟨p, type?⟩ := o
  cases type? with
  | none =>
    have absent : ∀ rest, ("?".toList ++ rest).dropPrefix? "CAST(".toList = none := fun rest => rfl
    exact (missing "CAST(").skip ((param p).last rfl) fun rest _ => absent rest
  | some type =>
    have typed : Takes (fun _ => True) (Reader.ofText (typeFrom 0 [])) (type ++ ")") [] type := by
      refine ofText fun rest _ => ?_
      have read := typeFrom_brackets (balanced type rfl) [] (')' :: rest)
      simpa [typeFrom] using read
    have text : Operand.sql ⟨p, some type⟩ = "CAST(" ++ ("?" ++ (" AS " ++ (type ++ ")"))) := by
      change "CAST(? AS " ++ type ++ ")" = _
      rw [← String.toList_inj]
      simp
    rw [text]
    refine (given "CAST(").andThen ?_
    refine (param p).andThen ?_
    refine (literal " AS ").andThen ?_
    exact typed.last rfl

theorem operand_opens (o : Operand) (rest : List Char) : (o.sql.toList ++ rest).dropPrefix? ")".toList = none := by
  obtain ⟨p, type?⟩ := o
  cases type? with
  | none =>
    change ("?".toList ++ rest).dropPrefix? _ = _
    simp [List.dropPrefix?]
  | some type =>
    change (("CAST(? AS " ++ type ++ ")").toList ++ rest).dropPrefix? _ = _
    simp [List.dropPrefix?]

theorem condition {c : Condition} (balanced : ∀ o ∈ c.operand?, o.Balanced) :
    Takes (fun _ => True) condition c.sql c.param?.toList c := by
  cases c with
  | equals column value =>
    have compared : Takes (fun _ => True) (comparison column) (" = " ++ value.sql) [value.param]
        (.equals column value) := by
      refine (literal " = ").andThen ?_
      exact (operand (balanced value rfl)).last rfl
    have text : Condition.sql (.equals column value) = Ident.quote column ++ (" = " ++ value.sql) :=
      String.append_assoc ..
    rw [text]
    refine (name column).bind ((missing " IS NULL").skip compared fun rest _ => ?_) fun rest _ => ?_
    · rw [String.toList_append, List.append_assoc]
      rfl
    · exact (apart_append rfl (by decide) (by decide) rest).1
  | isNull column =>
    refine (name column).bind ?_ fun rest _ => nofun
    exact (given " IS NULL").last rfl

theorem names {ns : List String} (nonempty : ns ≠ []) :
    Takes (fun rest => Apart rest ∧ rest.dropPrefix? ", ".toList = none) names (quotedNames ns) [] ns := by
  have takes : Takes (fun rest => Apart rest ∧ rest.dropPrefix? ", ".toList = none) Reader.names (quotedNames ns)
      (ns.flatMap fun _ => []) ns := parts (by decide) (fun rest => nofun) nonempty fun n _ => name n
  rwa [List.flatMap_eq_nil_iff.2 fun _ _ => rfl] at takes

/-! ### Queries and insertions -/

def Next (letters : List Char) (rest : List Char) : Prop := rest = [] ∨ ∃ c ∈ letters, ∃ more, rest = ' ' :: c :: more

theorem Next.clause {letters more rest : List Char} {word body : String} {c : Char}
    (begun : word.toList = ' ' :: c :: more) (none : Bool) (next : Next letters rest) :
    Next (c :: letters) ((if none then "" else word ++ body).toList ++ rest) := by
  cases none with
  | false => exact .inr ⟨c, List.mem_cons_self, more ++ (body.toList ++ rest), by simp [begun]⟩
  | true =>
    refine next.imp (fun blank => by simpa using blank) ?_
    rintro ⟨d, mem, more, rfl⟩
    exact ⟨d, List.mem_cons_of_mem _ mem, more, rfl⟩

theorem Next.apart {letters rest : List Char} (next : Next letters rest) : Apart rest := by
  obtain rfl | ⟨c, _, more, rfl⟩ := next
  · nofun
  · nofun

/-- What follows is not a word that begins with a comma, or with another letter after its blank. -/
theorem Next.absent {letters rest : List Char} (next : Next letters rest) {a b : Char} {word : List Char}
    (other : a = ' ' → b ∉ letters) : rest.dropPrefix? (a :: b :: word) = none := by
  obtain rfl | ⟨c, mem, more, rfl⟩ := next
  · rfl
  · by_cases blank : a = ' '
    · have apart : c ≠ b := fun same => other blank (same ▸ mem)
      simp [List.dropPrefix?, blank, apart]
    · simp [List.dropPrefix?, Ne.symm blank]

theorem quotedNames_mark {ns : List String} (nonempty : ns ≠ []) : ∃ more, (quotedNames ns).toList = '"' :: more := by
  obtain ⟨n, others, rfl⟩ := List.exists_cons_of_ne_nil nonempty
  cases others with
  | nil => exact ⟨Ident.double '"' n.toList ++ ['"'], by simp [quotedNames, Ident.quote, Ident.enclose]⟩
  | cons m others =>
    rw [quotedNames, List.map_cons, List.map_cons, String.intercalate_cons_cons, Ident.quote, Ident.enclose]
    simp

theorem selection {s : Selection} (selected : s ≠ .columns []) :
    Takes (fun rest => Apart rest ∧ rest.dropPrefix? ", ".toList = none) selection s.sql [] s := by
  cases s with
  | all =>
    have takes : Takes (fun _ => True) Reader.selection "*" [] .all := (given "*").last rfl
    exact takes.anywhere
  | one =>
    have one : Takes (fun _ => True) Reader.columns "1" [] .one := (given "1").last rfl
    have takes : Takes (fun _ => True) Reader.selection "1" [] .one := (missing "*").skip one fun rest _ => rfl
    exact takes.anywhere
  | columns ns =>
    have nonempty : ns ≠ [] := fun none => selected (congrArg Selection.columns none)
    obtain ⟨more, begun⟩ := quotedNames_mark nonempty
    have other : ∀ c word rest, c ≠ '"' → ((quotedNames ns).toList ++ rest).dropPrefix? (c :: word) = none := by
      intro c word rest ne
      simp [begun, List.dropPrefix?, Ne.symm ne]
    have columns : Takes (fun rest => Apart rest ∧ rest.dropPrefix? ", ".toList = none) Reader.columns
        (quotedNames ns) [] (.columns ns) := (missing "1").skip ((names nonempty).last rfl) fun rest _ => other _ _ rest (by decide)
    exact (missing "*").skip columns fun rest _ => other _ _ rest (by decide)

theorem limit (q : Select) : Takes (· = []) (Reader.given " LIMIT 1") q.limitSql [] q.firstOnly := by
  unfold Select.limitSql
  cases q.firstOnly with
  | false => exact (missing " LIMIT 1").weaken fun rest ended => ended ▸ rfl
  | true => exact (given " LIMIT 1").anywhere

theorem order (q : Select) : Takes (Next ['L']) (Reader.clause " ORDER BY " Reader.names) q.orderSql [] q.orderBy :=
  clause (fun some => (names some).weaken fun rest next => ⟨next.apart, next.absent (by decide)⟩) (fun _ => rfl)
    fun rest next => next.absent (by decide)

theorem conditions {q : Select} (balanced : ∀ c ∈ q.conditions, ∀ o ∈ c.operand?, o.Balanced) :
    Takes (Next ['O', 'L']) (Reader.clause " WHERE " (Reader.parts " AND " Reader.condition)) q.whereSql q.params
      q.conditions := by
  rw [Select.params, List.filterMap_eq_flatMap_toList]
  refine clause (fun some => ?_) (fun none => by rw [none]; rfl) fun rest next => next.absent (by decide)
  refine (parts (by decide) (fun _ => trivial) some fun c mem => condition (balanced c mem)).weaken fun rest next => ?_
  exact ⟨trivial, next.absent (by decide)⟩

theorem select {q : Select} (selected : q.selection ≠ .columns [])
    (balanced : ∀ c ∈ q.conditions, ∀ o ∈ c.operand?, o.Balanced) : Takes (· = []) select q.sql q.params q := by
  -- What may follow a clause is told by the clauses after it, from the last one on.
  have limited : ∀ rest, rest = [] → Next ['L'] (q.limitSql.toList ++ rest) := by
    rintro _ rfl
    unfold Select.limitSql
    cases q.firstOnly with
    | false => exact .inl rfl
    | true => exact .inr ⟨'L', List.mem_cons_self, "IMIT 1".toList, rfl⟩
  have ordered : ∀ rest, rest = [] → Next ['O', 'L'] ((q.orderSql ++ q.limitSql).toList ++ rest) := by
    intro rest ended
    rw [String.toList_append, List.append_assoc]
    exact Next.clause rfl _ (limited rest ended)
  have filtered : ∀ rest, rest = [] →
      Next ['W', 'O', 'L'] ((q.whereSql ++ (q.orderSql ++ q.limitSql)).toList ++ rest) := by
    intro rest ended
    rw [String.toList_append, List.append_assoc]
    exact Next.clause rfl _ (ordered rest ended)
  rw [Select.sql_eq, ← List.append_nil q.params]
  refine (literal "SELECT ").andThen ?_
  refine (selection selected).bind ?_ fun rest _ => apart_append rfl (by decide) (by decide) rest
  refine (literal " FROM ").andThen ?_
  refine (name q.table).bind ?_ fun rest ended => (filtered rest ended).apart
  refine (conditions balanced).bind ?_ ordered
  refine (order q).bind ?_ limited
  exact (limit q).last rfl

theorem row (i : Insert) : Reader.row i.table (i.values.map (·.1)) (i.values.map (·.2)) = Pure.pure i := by
  simp [Reader.row, List.zip_map']

theorem insert {i : Insert} (balanced : ∀ v ∈ i.values, v.2.Balanced) :
    Takes (fun _ => True) insert i.sql i.params i := by
  have columns : Takes (fun _ => True) (Reader.bracketed Reader.name) ("(" ++ (quotedNames (i.values.map (·.1)) ++ ")"))
      ((i.values.map (·.1)).flatMap fun _ => []) (i.values.map (·.1)) :=
    bracketed (fun _ => nofun) (fun _ => nofun) (fun n _ => name n) fun n _ rest => by
      simp [Ident.quote, Ident.enclose, List.dropPrefix?]
  rw [List.flatMap_eq_nil_iff.2 fun _ _ => rfl] at columns
  have operands : Takes (fun _ => True) (Reader.bracketed Reader.operand)
      ("(" ++ (", ".intercalate ((i.values.map (·.2)).map (·.sql)) ++ ")"))
      ((i.values.map (·.2)).flatMap fun o => [o.param]) (i.values.map (·.2)) := by
    have each : ∀ o ∈ i.values.map (·.2), Takes (fun _ => True) Reader.operand o.sql [o.param] o := by
      intro o mem
      obtain ⟨v, hv, rfl⟩ := List.mem_map.1 mem
      exact operand (balanced v hv)
    exact bracketed (fun _ => trivial) (fun _ => trivial) each fun o _ rest => operand_opens o rest
  have text : i.sql = "INSERT INTO " ++ (Ident.quote i.table ++ (" " ++
      (("(" ++ (quotedNames (i.values.map (·.1)) ++ ")")) ++ (" VALUES " ++ ("(" ++ (", ".intercalate ((i.values.map (·.2)).map (·.sql)) ++ ")")))))) := by
    delta Insert.sql
    rw [← String.toList_inj]
    simp only [String.toList_append, List.map_map, Function.comp_def]
    simp
  have params : i.params = (i.values.map (·.2)).flatMap fun o => [o.param] := by
    rw [Insert.params, ← List.map_eq_flatMap, List.map_map]
    rfl
  rw [text, params]
  refine (literal "INSERT INTO ").andThen ?_
  refine (name i.table).bind ?_ fun rest _ => (apart_append rfl (by decide) (by decide) rest).1
  refine (literal " ").andThen ?_
  refine columns.andThen ?_
  refine (literal " VALUES ").andThen ?_
  exact operands.last (row i)

theorem insertReturning {i : Insert} (balanced : ∀ v ∈ i.values, v.2.Balanced) :
    Takes (fun _ => True) insertReturning (Request.insertReturning i).sql i.params i := by
  have text : (Request.insertReturning i).sql = i.sql ++ (" RETURNING " ++ Ident.quote Schema.idColumn) :=
    String.append_assoc ..
  rw [text, ← List.append_nil i.params]
  refine (insert balanced).andThen ?_
  exact (literal _).last rfl

end Takes

end Sql.Reader

/-! ### Requests -/

open Sql

namespace Request

/-- Reads a request from the method that is called, the text and the parameters. The text that creates a table is a
command and not read here. -/
def read? (method text : String) (params : List Param) : Option Request :=
  match method with
  | "query" => (Reader.whole? .select text params).map .select
  | "execute_with" => (Reader.whole? .insert text params).map .insert
  | "insert_returning_id" => (Reader.whole? .insertReturning text params).map .insertReturning
  | "columns_of" => if params.isEmpty then some (.columnsOf text) else none
  | _ => none

/-- A request names at least one column where it names columns, and its casts are to types with matching brackets. -/
inductive Legible : Request → Prop
  | select {q : Select} (selected : q.selection ≠ .columns [])
      (balanced : ∀ c ∈ q.conditions, ∀ o ∈ c.operand?, o.Balanced) : Legible (.select q)
  | insert {i : Insert} (balanced : ∀ v ∈ i.values, v.2.Balanced) : Legible (.insert i)
  | insertReturning {i : Insert} (balanced : ∀ v ∈ i.values, v.2.Balanced) : Legible (.insertReturning i)
  | columnsOf {table : String} : Legible (.columnsOf table)

namespace Legible

variable {r s : Request}

/-- What is sent for a request is read back as that request: its table, columns, operands and clauses with their
parameters. -/
theorem reads_back (legible : r.Legible) : read? r.method r.sql r.params = some r := by
  cases legible with
  | select selected balanced =>
    have read := (Reader.Takes.select selected balanced).whole
    simp only [read?, method, sql, params, read, Option.map_some]
  | insert balanced =>
    have read := (Reader.Takes.insert balanced).anywhere.whole
    simp only [read?, method, sql, params, read, Option.map_some]
  | insertReturning balanced =>
    have read := (Reader.Takes.insertReturning balanced).anywhere.whole
    simp only [read?, method, sql, params] at read ⊢
    rw [read, Option.map_some]
  | columnsOf => rfl

/-- No two requests are sent alike. -/
theorem eq_of_sent (first : r.Legible) (second : s.Legible) (method : r.method = s.method) (sql : r.sql = s.sql)
    (params : r.params = s.params) : r = s := by
  have read := first.reads_back
  rw [method, sql, params, second.reads_back] at read
  exact (Option.some.inj read).symm

end Legible

end Request

example : Request.read? "query"
    "SELECT \"relation_name\" FROM \"entity_hierarchy\" WHERE \"parent_entity\" = ? AND \"child_entity\" = ?"
    [.text "Box", .text "Item"] = some (.select (Registry.selectRelation "Box" "Item")) := by decide +kernel

example : Request.read? "insert_returning_id"
    "INSERT INTO \"A\"\"b\" (\"n\", \"m\") VALUES (CAST(? AS DECIMAL(18, 3)), ?) RETURNING \"id\"" [.text "1", .int 2] =
      some (.insertReturning ⟨"A\"b", [("n", ⟨.text "1", some "DECIMAL(18, 3)"⟩), ("m", ⟨.int 2, none⟩)]⟩) := by
  decide +kernel

end TreeStore
