import TreeStore.Store.Apply
import TreeStore.Text.Case

/-! A store without a database behind it. It notes every request and answers so that a load can go on: a
row that has been inserted after a query in vain is found by the same query later. Rules decide single
requests otherwise. -/

namespace TreeStore

/-- What a rule makes of a request. -/
inductive RuleAnswer where
  | fail (error : StoreError)
  /-- The answer to a query; other requests do not concern the rule. -/
  | rows (rows : List Row)

/-- A rule for the requests whose text holds a pattern: the first ones are left alone, and after some times
the rule is used up. -/
structure Rule where
  pattern : String
  skip : Nat := 0
  times : Option Nat := none
  answer : RuleAnswer

/-- A request as it is noted. -/
structure Call where
  method : String
  sql : String
  params : List Param
deriving DecidableEq, Repr

/-- A query, as what may be remembered of it. -/
abbrev QueryKey := String × List Param

structure Recorder where
  rules : List Rule := []
  catalog : TextMap (List CatalogColumn) := .empty
  /-- The tables that have been created, in small letters. -/
  created : List String := []
  /-- The rows of the hierarchy's table. -/
  entries : List Row := []
  nextId : Int := 1
  /-- The ids that queries find. -/
  found : List (QueryKey × Int) := []
  /-- The query that has just found nothing. -/
  pending : Option QueryKey := none
  /-- All requests, the last one first. -/
  calls : List Call := []

namespace Recorder

/-- Finds the rule that decides a request, and counts it and those that it passes over. -/
def decide (text : String) (isQuery : Bool) : List Rule → Option RuleAnswer × List Rule
  | [] => (none, [])
  | r :: rest =>
    let concerned := match r.answer with
      | .rows _ => isQuery
      | .fail _ => true
    if r.times = some 0 || !concerned || !StoreError.occursIn r.pattern.toList text.toList then
      let (answer, rest) := decide text isQuery rest
      (answer, r :: rest)
    else if 0 < r.skip then
      let (answer, rest) := decide text isQuery rest
      (answer, { r with skip := r.skip - 1 } :: rest)
    else (some r.answer, { r with times := r.times.map (· - 1) } :: rest)

/-- Remembers an id for the query that has just found nothing. -/
def remember (id : Int) (s : Recorder) : Recorder :=
  match s.pending with
  | none => s
  | some key => { s with found := (key, id) :: s.found, pending := none }

/-- The name of the table that a text creates: what stands in the quotes after the words. -/
def createdName? (sql : List Char) : Option String :=
  let words := "CREATE TABLE \"".toList
  match sql with
  | [] => none
  | c :: rest =>
    if words.isPrefixOf (c :: rest) then
      some (String.ofList (((c :: rest).drop words.length).takeWhile (· ≠ '"')))
    else createdName? rest

def answerCreate (t : Table) (s : Recorder) : Except StoreError Unit × Recorder :=
  match createdName? t.sql.toList with
  | none => (.ok (), s)
  | some name =>
    if s.created.contains (Text.lower name) then
      (.error (.failed .alreadyExists (some s!"table {name}")), s)
    else (.ok (), { s with created := Text.lower name :: s.created })

/-- Whether one entry of the hierarchy comes before another. -/
def entryLe (a b : Row) : Bool :=
  let key (r : Row) := ((r[0]?.join).getD "", (r[1]?.join).getD "")
  (key a).1 < (key b).1 || ((key a).1 = (key b).1 && !((key b).2 < (key a).2))

/-- Entries of the hierarchy: the relations of a pair, or all entries in order. -/
def selectEntries (params : List Param) (entries : List Row) : List Row :=
  match params with
  | [.text parent, .text child] =>
    (entries.filter fun r => r.take 2 = [some parent, some child]).map (·.drop 2)
  | _ => entries.mergeSort entryLe

def answerSelect (q : Select) (s : Recorder) : Except StoreError (List Row) × Recorder :=
  let key : QueryKey := (q.sql, q.params)
  if StoreError.occursIn ("FROM " ++ Ident.quote Schema.registryTable).toList q.sql.toList then
    (.ok (selectEntries q.params s.entries), s)
  else match s.found.lookup key with
    | some id => (.ok [[some (toString id)]], s)
    | none => (.ok [], { s with pending := some key })

def paramText : Param → String
  | .text t => t
  | .int n => toString n

def answerInsert (i : Insert) (s : Recorder) : Except StoreError Unit × Recorder :=
  if i.table = Schema.registryTable then
    (.ok (), { s with entries := s.entries ++ [i.params.map fun p => some (paramText p)] })
  else (.ok (), s.remember 1)

def answerInsertReturning (s : Recorder) : Except StoreError Int × Recorder :=
  let id := s.nextId
  (.ok id, { s with nextId := id + 1 }.remember id)

/-- The answer to a request that no rule decides. -/
def answerFreely : (r : Request) → Recorder → Except StoreError r.Answer × Recorder
  | .create t, s => answerCreate t s
  | .select q, s => answerSelect q s
  | .insert i, s => answerInsert i s
  | .insertReturning _, s => answerInsertReturning s
  | .columnsOf table, s => (.ok ((s.catalog.get? (Text.lower table)).getD []), s)

def isQuery : Request → Bool
  | .select _ => true
  | _ => false

/-- The answer that a rule gives to a request. -/
def answerByRule : RuleAnswer → (r : Request) → Except StoreError r.Answer
  | .fail error, _ => .error error
  | .rows rows, .select _ => .ok rows
  | .rows _, _ => .error (.failed .internal none)

def answer (r : Request) (s : Recorder) : Except StoreError r.Answer × Recorder :=
  let (decision, rules) := decide r.sql (isQuery r) s.rules
  let s := { s with
    rules
    calls := ⟨r.method, r.sql, r.params⟩ :: s.calls
    pending := if isQuery r then none else s.pending }
  match decision with
  | some a => (answerByRule a r, s)
  | none => answerFreely r s

def store : Store Recorder := ⟨answer⟩

def setColumns (table : String) (columns : List CatalogColumn) (s : Recorder) : Recorder :=
  { s with catalog := s.catalog.insert (Text.lower table) columns }

/-- Takes over the columns of the tables that have been created. -/
def adopt (report : ApplyReport) (stmts : List Statement) (s : Recorder) : Recorder :=
  stmts.foldl
    (fun s stmt => match stmt with
      | .create t =>
        if report.executed.contains stmt.label then
          s.setColumns t.name (t.columns.map fun c => ⟨c.name, c.type⟩)
        else s
      | .register _ => s)
    s

end Recorder

end TreeStore
