import TreeStore.Xml.Fault
import TreeStore.Number.Numeral

/-! The inside of a tag: a name and quoted attributes, in which the five predefined entities and
character references stand for characters. Declarations of name spaces are no attributes. -/

namespace TreeStore.Xml

structure Tag where
  name : String
  attributes : List (String × String)
deriving DecidableEq, Repr

def isSpace (c : Char) : Bool := c = ' ' || c = '\r' || c = '\n' || c = '\t'

namespace Reference

/-- The character with a code, if there is one other than NUL. -/
def charOf? (code : Nat) : Option Char :=
  if code = 0 then none else if code.isValidChar then some (Char.ofNat code) else none

/-- The character that a reference stands for, given what is written between `&` and `;`. -/
def resolve? : List Char → Option Char
  | '#' :: 'x' :: ds => if 6 < ds.length then none else (Numeral.natural? 16 ds).bind charOf?
  | '#' :: ds => if 7 < ds.length then none else (Numeral.natural? 10 ds).bind charOf?
  | ['l', 't'] => some '<'
  | ['g', 't'] => some '>'
  | ['a', 'm', 'p'] => some '&'
  | ['a', 'p', 'o', 's'] => some '\''
  | ['q', 'u', 'o', 't'] => some '"'
  | _ => none

/-- Replaces references. Inside one, what is written so far is kept last first. -/
def decodeFrom : Option (List Char) → List Char → Option (List Char)
  | none, [] => some []
  | some _, [] => none
  | none, c :: rest => if c = '&' then decodeFrom (some []) rest else (decodeFrom none rest).map (c :: ·)
  | some run, c :: rest =>
    if c = ';' then do
      let x ← resolve? run.reverse
      return x :: (← decodeFrom none rest)
    else if c = '&' then none
    else decodeFrom (some (c :: run)) rest

def decode (s : List Char) : Option String := (decodeFrom none s).map String.ofList

end Reference

namespace Tag

/-- Where a character of an attribute list stands. Collected characters are last first. -/
inductive Mode where
  | between
  | key (run : List Char)
  | afterKey (key : String)
  | afterEquals (key : String)
  | value (key : String) (quote : Char) (run : List Char)

def declaresSpace (key : String) : Bool := key = "xmlns" || key.startsWith "xmlns:"

/-- An attribute list as read so far: its keys, and the attributes it gives, last first. -/
structure Progress where
  keys : List String := []
  attributes : List (String × String) := []

/-- Ends a key at its equals sign. A key may stand only once. -/
def endKey (tag key : String) (p : Progress) : Except Fault (Progress × Mode) :=
  if p.keys.contains key then .error (.badAttribute tag)
  else .ok ({ p with keys := key :: p.keys }, .afterEquals key)

def endValue (tag key : String) (written : List Char) (p : Progress) : Except Fault Progress :=
  if declaresSpace key then .ok p
  else match Reference.decode written with
    | some value => .ok { p with attributes := (key, value) :: p.attributes }
    | none => .error (.badValue key tag)

def step (tag : String) (p : Progress) (mode : Mode) (c : Char) : Except Fault (Progress × Mode) :=
  match mode with
  | .between => .ok (p, if isSpace c then .between else .key [c])
  | .key run =>
    if c = '=' then endKey tag (String.ofList run.reverse) p
    else if isSpace c then .ok (p, .afterKey (String.ofList run.reverse))
    else .ok (p, .key (c :: run))
  | .afterKey key =>
    if isSpace c then .ok (p, mode)
    else if c = '=' then endKey tag key p
    else .error (.badAttribute tag)
  | .afterEquals key =>
    if isSpace c then .ok (p, mode)
    else if c = '"' ∨ c = '\'' then .ok (p, .value key c [])
    else .error (.badAttribute tag)
  | .value key quote run =>
    if c = quote then do return (← endValue tag key run.reverse p, .between)
    else .ok (p, .value key quote (c :: run))

def readAttributes (tag : String) (p : Progress) (mode : Mode) :
    List Char → Except Fault (List (String × String))
  | [] => match mode with
    | .between => .ok p.attributes.reverse
    | _ => .error (.badAttribute tag)
  | c :: rest => do
    let (p, mode) ← step tag p mode c
    readAttributes tag p mode rest

/-- Reads what stands between `<` and `>`, or before the `/` of a tag that closes itself. -/
def ofText (s : List Char) : Except Fault Tag := do
  let name := String.ofList (s.takeWhile (!isSpace ·))
  return ⟨name, ← readAttributes name {} .between (s.dropWhile (!isSpace ·))⟩

end Tag

end TreeStore.Xml
