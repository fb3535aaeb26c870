import TreeStore.Yaml.Style

/-! The YAML text of a document's content in block style: an entry or an item a line, the dashes of a list
below the key that it belongs to. -/

namespace TreeStore.Yaml

/-- A text being written. -/
structure Page where
  /-- The characters so far, last first. -/
  written : List Char := []
  column : Nat := 0
  /-- Whether the last thing written keeps the next one apart. -/
  apart : Bool := true
  /-- Whether the line so far holds nothing but blanks and marks of items and keys. -/
  indented : Bool := true

namespace Page

def put (p : Page) (c : Char) : Page := { p with written := c :: p.written, column := p.column + 1 }

def putAll (p : Page) (cs : List Char) : Page := cs.foldl put p

def lineBreak (p : Page) : Page := { p with written := '\n' :: p.written, column := 0 }

def putBreak (p : Page) (c : Char) : Page :=
  { p with written := c :: p.written, column := 0, indented := true }

/-- Moves to a column, on a new line unless this one has room. -/
def startLine (p : Page) (indent : Nat) : Page :=
  let fresh := !p.indented || indent < p.column || (p.column = indent && !p.apart)
  let p := if fresh then p.lineBreak else p
  { p.putAll (List.replicate (indent - p.column) ' ') with apart := true, indented := true }

/-- Writes a mark, after a blank if it has to stand apart. -/
def mark (p : Page) (m : String) (apart : Bool := true) : Page :=
  let p := if apart && !p.apart then p.put ' ' else p
  { p.putAll m.toList with apart := false, indented := false }

/-- Writes the mark of an item or key, after which the line still counts as indentation. -/
def blockMark (p : Page) (m : String) : Page := { p.mark m with indented := p.indented }

def endScalar (p : Page) : Page := { p with apart := false, indented := false }

def putPlain (p : Page) (s : List Char) : Page :=
  let p := if !p.apart && !s.isEmpty then p.put ' ' else p
  (p.putAll s).endScalar

/-- Writes the characters of a scalar in single quotes. -/
def putSingleQuotedChars (indent : Nat) : Bool → List Char → Page → Page
  | broken, [], p => if broken then p.startLine indent else p
  | broken, c :: rest, p =>
    if isBreak c then
      let p := if !broken && c = '\n' then p.lineBreak else p
      putSingleQuotedChars indent true rest (p.putBreak c)
    else if c = ' ' then putSingleQuotedChars indent broken rest (p.put c)
    else
      let p := if broken then p.startLine indent else p
      let p := if c = '\'' then p.put c else p
      putSingleQuotedChars indent false rest { p.put c with indented := false }

def putSingleQuoted (indent : Nat) (p : Page) (s : List Char) : Page :=
  ((putSingleQuotedChars indent false s (p.mark "'")).mark "'" false).endScalar

def hexDigit (n : Nat) : Char := if n < 10 then Char.ofNat (48 + n) else Char.ofNat (55 + n)

def hexDigits (n : Nat) : Nat → List Char
  | 0 => []
  | width + 1 => hexDigit (n / Nat.pow 16 width % 16) :: hexDigits n width

def escapeOf (c : Char) : List Char :=
  match c with
  | '\x00' => ['0']
  | '\x07' => ['a']
  | '\x08' => ['b']
  | '\t' => ['t']
  | '\n' => ['n']
  | '\x0b' => ['v']
  | '\x0c' => ['f']
  | '\r' => ['r']
  | '\x1b' => ['e']
  | '"' => ['"']
  | '\\' => ['\\']
  | '\u0085' => ['N']
  | '\u00a0' => ['_']
  | '\u2028' => ['L']
  | '\u2029' => ['P']
  | c =>
    let n := c.toNat
    if n ≤ 0xFF then 'x' :: hexDigits n 2
    else if n ≤ 0xFFFF then 'u' :: hexDigits n 4
    else 'U' :: hexDigits n 8

def doubleQuotedChar (c : Char) : List Char :=
  if !isPrintable c || isBreak c || c = '"' || c = '\\' then '\\' :: escapeOf c else [c]

def putDoubleQuoted (p : Page) (s : List Char) : Page :=
  (((p.mark "\"").putAll (s.flatMap doubleQuotedChar)).mark "\"" false).endScalar

/-- The indicators of a literal block: its indentation if it begins with a blank, and what is kept of the
ends of lines at its end. -/
def literalHints (s : List Char) : String :=
  let indentation := if s.head?.any fun c => c = ' ' || isBreak c then "2" else ""
  let chomping := match s.reverse with
    | [] => "-"
    | [c] => if isBreak c then "+" else "-"
    | c :: d :: _ => if !isBreak c then "-" else if isBreak d then "+" else ""
  indentation ++ chomping

def putLiteralChars (indent : Nat) : Bool → List Char → Page → Page
  | _, [], p => p
  | broken, c :: rest, p =>
    if isBreak c then putLiteralChars indent true rest (p.putBreak c)
    else
      let p := if broken then p.startLine indent else p
      putLiteralChars indent false rest { p.put c with indented := false }

def putLiteral (indent : Nat) (p : Page) (s : List Char) : Page :=
  let p := ((p.mark "|").mark (literalHints s) false).lineBreak
  putLiteralChars indent true s { p with apart := true, indented := true }

/-- Writes a text whose further lines stand at a column. -/
def putText (indent : Nat) (s : String) (p : Page) : Page :=
  match styleOf s with
  | .plain => p.putPlain s.toList
  | .singleQuoted => p.putSingleQuoted indent s.toList
  | .literal => p.putLiteral indent s.toList
  | _ => p.putDoubleQuoted s.toList

/-- The bytes that a key on one line may have. -/
def maxKeyBytes : Nat := 128

def textOf : Node → String
  | .scalar s => s.text.getD ""
  | _ => ""

def putKey (indent : Nat) (key : String) (p : Page) : Page :=
  let p := p.startLine indent
  if !isMultiline key.toList && key.utf8ByteSize ≤ maxKeyBytes then
    (putText (indent + 2) key p).mark ":" false
  else ((putText (indent + 2) key (p.blockMark "?")).startLine indent).blockMark ":"

mutual

/-- Writes a node below content that stands at column `outer`, if there is any. -/
def putNode (outer : Option Nat) (afterKey : Bool) : Node → Page → Page
  | .scalar s, p => p.putText ((outer.map (· + 2)).getD 2) (s.text.getD "")
  | .list _ [], p => (p.mark "[").mark "]" false
  | .list _ items, p =>
    let indent := match outer with
      | none => 0
      | some n => if afterKey && !p.indented then n else n + 2
    putItems indent items p
  | .dict _ [], p => (p.mark "\x7b").mark "\x7d" false
  | .dict _ entries, p => putEntries ((outer.map (· + 2)).getD 0) entries p
  | .broken, p => p

def putItems (indent : Nat) : List Node → Page → Page
  | [], p => p
  | n :: rest, p =>
    putItems indent rest (putNode (some indent) false n ((p.startLine indent).blockMark "-"))

def putEntries (indent : Nat) : List (Node × Node) → Page → Page
  | [], p => p
  | (k, v) :: rest, p =>
    putEntries indent rest (putNode (some indent) true v (p.putKey indent (textOf k)))

end

end Page

def render (n : Node) : String :=
  String.ofList ((Page.putNode none false n {}).startLine 0).written.reverse

end TreeStore.Yaml
