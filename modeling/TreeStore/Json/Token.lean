import TreeStore.Json.Number

/-! The words of a JSON text: marks, and values without parts. A text with a fault ends in `bad`, and
what comes after is not read. -/

namespace TreeStore.Json

inductive Token where
  | openList
  | closeList
  | openDict
  | closeDict
  | colon
  | comma
  | value (d : Datum)
  | bad
deriving DecidableEq, Repr

namespace Token

def isSpace (c : Char) : Bool := c = ' ' || c = '\n' || c = '\t' || c = '\r'

/-- Where a character stands: between words or inside one. Collected characters are last first. -/
inductive Mode where
  | between
  | number (run : List Char)
  | word (run : List Char)
  | text (run : List Char)
  /-- After a backslash. -/
  | escape (run : List Char)
  /-- Inside four hexadecimal digits, after the first half of a surrogate pair if there is one. -/
  | hex (run : List Char) (first : Option Nat) (count : Nat) (code : Nat)
  /-- After the first half of a surrogate pair. -/
  | pair (run : List Char) (first : Nat)
  /-- After it and a backslash. -/
  | pairEscape (run : List Char) (first : Nat)

def mark? : Char → Option Token
  | '[' => some .openList
  | ']' => some .closeList
  | '{' => some .openDict
  | '}' => some .closeDict
  | ':' => some .colon
  | ',' => some .comma
  | _ => none

def isNumberChar (c : Char) : Bool :=
  isDigit c || c = '-' || c = '+' || c = '.' || c = 'e' || c = 'E'

/-- The token of a run that may be too long. -/
def withRest : Option (Datum × List Char) → List Token
  | none => [.bad]
  | some (d, []) => [.value d]
  | some (d, _) => [.value d, .bad]

def ofNumber (run : List Char) : List Token := withRest (scanNumber run.reverse)

def ofWord (run : List Char) : List Token :=
  withRest <| match run.reverse with
    | 'n' :: 'u' :: 'l' :: 'l' :: rest => some (.null, rest)
    | 't' :: 'r' :: 'u' :: 'e' :: rest => some (.flag true, rest)
    | 'f' :: 'a' :: 'l' :: 's' :: 'e' :: rest => some (.flag false, rest)
    | _ => none

/-- What a character does: the tokens it ends or is, and the mode after it unless it is a fault. -/
abbrev Step := List Token × Option Mode

def begin (c : Char) : Step :=
  if isSpace c then ([], some .between)
  else if c = '"' then ([], some (.text []))
  else if isDigit c || c = '-' then ([], some (.number [c]))
  else if c.isAlpha then ([], some (.word [c]))
  else match mark? c with
    | some t => ([t], some .between)
    | none => ([], none)

def beginAfter (ts : List Token) (c : Char) : Step := (ts ++ (begin c).1, (begin c).2)

def simpleEscape? : Char → Option Char
  | '"' => some '"'
  | '\\' => some '\\'
  | '/' => some '/'
  | 'b' => some '\x08'
  | 'f' => some '\x0c'
  | 'n' => some '\n'
  | 'r' => some '\r'
  | 't' => some '\t'
  | _ => none

def hexValue? (c : Char) : Option Nat := (Numeral.digitValue? c).filter (· < 16)

def endHex (run : List Char) (first : Option Nat) (code : Nat) : Option Mode :=
  let isLow := 0xDC00 ≤ code ∧ code ≤ 0xDFFF
  match first with
  | some high =>
    if isLow then some (.text (Char.ofNat (0x10000 + (high - 0xD800) * 0x400 + (code - 0xDC00)) :: run))
    else none
  | none =>
    if isLow then none
    else if 0xD800 ≤ code ∧ code ≤ 0xDBFF then some (.pair run code)
    else some (.text (Char.ofNat code :: run))

/-- Reads one character. A run outside quotes ends at the first character that does not belong to it. -/
def step : Mode → Char → Step
  | .between, c => begin c
  | .number run, c =>
    if isNumberChar c then ([], some (.number (c :: run))) else beginAfter (ofNumber run) c
  | .word run, c =>
    if c.isAlphanum then ([], some (.word (c :: run))) else beginAfter (ofWord run) c
  | .text run, c =>
    if c = '"' then ([.value (.text (String.ofList run.reverse))], some .between)
    else if c = '\\' then ([], some (.escape run))
    else if c.toNat < 0x20 then ([], none)
    else ([], some (.text (c :: run)))
  | .escape run, c =>
    if c = 'u' then ([], some (.hex run none 0 0))
    else ([], (simpleEscape? c).map fun x => .text (x :: run))
  | .hex run first count code, c =>
    ([], do
      let d ← hexValue? c
      let code := code * 16 + d
      if count < 3 then some (.hex run first (count + 1) code) else endHex run first code)
  | .pair run first, c => ([], if c = '\\' then some (.pairEscape run first) else none)
  | .pairEscape run first, c => ([], if c = 'u' then some (.hex run (some first) 0 0) else none)

/-- The tokens left at the end of the text. -/
def finish : Mode → List Token
  | .between => []
  | .number run => ofNumber run
  | .word run => ofWord run
  | _ => [.bad]

/-- The tokens of a text from a mode on. -/
def scan (mode : Mode) : List Char → List Token
  | [] => finish mode
  | c :: rest =>
    match step mode c with
    | (ts, some next) => ts ++ scan next rest
    | (ts, none) => ts ++ [.bad]

def ofText (s : String) : List Token := scan .between s.toList

end Token

end TreeStore.Json
