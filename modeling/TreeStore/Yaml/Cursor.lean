/-! A place in a YAML text: what is left of it, and how far along and down it lies. -/

namespace TreeStore.Yaml

def isBreak (c : Char) : Bool :=
  c = '\n' || c = '\r' || c = '\u0085' || c = '\u2028' || c = '\u2029'

def isBlank (c : Char) : Bool := c = ' ' || c = '\t'

/-- Characters of names of anchors, directives and tag handles. -/
def isWord (c : Char) : Bool := c.isAlphanum || c = '_' || c = '-'

/-- Whether a text has a blank or an end of line in front, or nothing. -/
def blankAhead : List Char → Bool
  | [] => true
  | c :: _ => isBlank c || isBreak c

/-- Whether a text has an end of line in front, or nothing. -/
def breakAhead : List Char → Bool
  | [] => true
  | c :: _ => isBreak c

structure Cursor where
  rest : List Char
  index : Nat := 0
  line : Nat := 0
  column : Nat := 0

namespace Cursor

def skip (at_ : Cursor) (n : Nat) : Cursor :=
  { at_ with rest := at_.rest.drop n, index := at_.index + n, column := at_.column + n }

/-- The characters in front that satisfy `p`. -/
def run (at_ : Cursor) (p : Char → Bool) : List Char := at_.rest.takeWhile p

def skipWhile (at_ : Cursor) (p : Char → Bool) : Cursor := at_.skip (at_.run p).length

/-- How many characters the end of line in front has. -/
def breakLength : List Char → Nat
  | '\r' :: '\n' :: _ => 2
  | _ :: _ => 1
  | [] => 0

/-- The text that the end of line in front stands for. -/
def breakText : List Char → List Char
  | '\u2028' :: _ => ['\u2028']
  | '\u2029' :: _ => ['\u2029']
  | _ :: _ => ['\n']
  | [] => []

def skipBreak (at_ : Cursor) : Cursor :=
  let n := breakLength at_.rest
  { rest := at_.rest.drop n, index := at_.index + n, line := at_.line + 1, column := 0 }

/-- Whether a line begins here with three dashes or dots that stand for themselves. -/
def atDocumentMark (at_ : Cursor) : Bool :=
  at_.column = 0 && match at_.rest with
    | '-' :: '-' :: '-' :: rest => blankAhead rest
    | '.' :: '.' :: '.' :: rest => blankAhead rest
    | _ => false

end Cursor

end TreeStore.Yaml
