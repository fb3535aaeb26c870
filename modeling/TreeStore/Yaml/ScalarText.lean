import TreeStore.Yaml.Tag

/-! The texts of scalars. Inside a plain or quoted scalar one end of line is a blank and every further
one stands; a block scalar keeps its lines or folds them. `none` means that the text is at fault. The
argument `steps` begins above the length of the text, counts down no faster than it, and so is never used
up. -/

namespace TreeStore.Yaml

/-- What stands between two words of a scalar. -/
structure Gap where
  blanks : List Char := []
  /-- Whether an end of line has been passed, after which blanks do not count. -/
  broken : Bool := false
  first : List Char := []
  further : List Char := []

def Gap.text (g : Gap) : List Char :=
  if !g.broken then g.blanks
  else if g.first = ['\n'] then (if g.further.isEmpty then [' '] else g.further)
  else g.first ++ g.further

/-- Reads blanks and ends of lines. A tab before column `indent` of a later line is a fault. -/
def scanGap (indent : Nat) : Nat → Gap → Cursor → Option (Gap × Cursor)
  | 0, g, at_ => some (g, at_)
  | steps + 1, g, at_ =>
    match at_.rest with
    | [] => some (g, at_)
    | c :: _ =>
      if isBlank c then
        if g.broken && at_.column < indent && c = '\t' then none
        else
          let g := if g.broken then g else { g with blanks := g.blanks ++ [c] }
          scanGap indent steps g (at_.skip 1)
      else if isBreak c then
        let text := Cursor.breakText at_.rest
        let g := if g.broken then { g with further := g.further ++ text }
          else { g with blanks := [], broken := true, first := text }
        scanGap indent steps g at_.skipBreak
      else some (g, at_)

/-- How many characters the word of a plain scalar has. Inside brackets a colon before another mark is a
fault. -/
def plainLength (inFlow : Bool) : List Char → Option Nat
  | [] => some 0
  | c :: rest =>
    if isBlank c || isBreak c then some 0
    else if inFlow && c = ':' && (rest.head?.any fun d => [',', '?', '[', ']', '{', '}'].contains d)
    then none
    else if (c = ':' && blankAhead rest) || (inFlow && [',', '[', ']', '{', '}'].contains c) then some 0
    else (plainLength inFlow rest).map (· + 1)

/-- Reads a plain scalar: its text, whether lines have ended after it, and where it ends. -/
def scanPlain (inFlow : Bool) (indent : Nat) :
    Nat → List Char → Gap → Cursor → Option (List Char × Bool × Cursor)
  | 0, acc, g, at_ => some (acc, g.broken, at_)
  | steps + 1, acc, g, at_ => do
    if at_.atDocumentMark || at_.rest.head? = some '#' then return (acc, g.broken, at_)
    let n ← plainLength inFlow at_.rest
    let (acc, g) := if n = 0 then (acc, g) else (acc ++ g.text ++ at_.rest.take n, {})
    let at_ := at_.skip n
    if !(at_.rest.head?.any fun c => isBlank c || isBreak c) then return (acc, g.broken, at_)
    let (g, at_) ← scanGap indent steps g at_
    if !inFlow && at_.column < indent then return (acc, g.broken, at_)
    scanPlain inFlow indent steps acc g at_

/-- The character of a code, unless it is no character. -/
def charOfCode? (code : Nat) : Option Char :=
  if code.isValidChar then some (Char.ofNat code) else none

/-- What an escape stands for, given what follows the backslash, and its length. -/
def unescape? : List Char → Option (Char × Nat)
  | [] => none
  | c :: rest =>
    let coded (n : Nat) : Option (Char × Nat) := do
      let digits := rest.take n
      if digits.length < n then none
      else return (← charOfCode? (← Numeral.natural? 16 digits), n + 1)
    match c with
    | '0' => some ('\x00', 1)
    | 'a' => some ('\x07', 1)
    | 'b' => some ('\x08', 1)
    | 't' | '\t' => some ('\t', 1)
    | 'n' => some ('\n', 1)
    | 'v' => some ('\x0b', 1)
    | 'f' => some ('\x0c', 1)
    | 'r' => some ('\r', 1)
    | 'e' => some ('\x1b', 1)
    | ' ' => some (' ', 1)
    | '"' => some ('"', 1)
    | '/' => some ('/', 1)
    | '\\' => some ('\\', 1)
    | 'N' => some ('\u0085', 1)
    | '_' => some ('\u00a0', 1)
    | 'L' => some ('\u2028', 1)
    | 'P' => some ('\u2029', 1)
    | 'x' => coded 2
    | 'u' => coded 4
    | 'U' => coded 8
    | _ => none

/-- Reads a word of a quoted scalar, last character first, and tells whether an escaped end of line has
ended it. -/
def scanQuotedWord (single : Bool) :
    Nat → List Char → Cursor → Option (List Char × Bool × Cursor)
  | 0, acc, at_ => some (acc, false, at_)
  | steps + 1, acc, at_ =>
    match at_.rest with
    | [] => some (acc, false, at_)
    | c :: rest =>
      if isBlank c || isBreak c then some (acc, false, at_)
      else if single && c = '\'' then
        if rest.head? = some '\'' then scanQuotedWord single steps ('\'' :: acc) (at_.skip 2)
        else some (acc, false, at_)
      else if !single && c = '"' then some (acc, false, at_)
      else if !single && c = '\\' then
        if rest.head?.any isBreak then some (acc, true, (at_.skip 1).skipBreak)
        else match unescape? rest with
          | some (x, n) => scanQuotedWord single steps (x :: acc) (at_.skip (n + 1))
          | none => none
      else scanQuotedWord single steps (c :: acc) (at_.skip 1)

/-- Reads a quoted scalar after its first quote, to the last one. -/
def scanQuoted (single : Bool) : Nat → List Char → Cursor → Option (List Char × Cursor)
  | 0, _, _ => none
  | steps + 1, acc, at_ => do
    if at_.atDocumentMark || at_.rest.isEmpty then none
    else
      let (word, escaped, at_) ← scanQuotedWord single steps [] at_
      let acc := acc ++ word.reverse
      if !escaped && at_.rest.head? = some (if single then '\'' else '"') then return (acc, at_.skip 1)
      let (g, at_) ← scanGap 0 steps { broken := escaped } at_
      scanQuoted single steps (acc ++ g.text) at_

/-- What a block scalar keeps of the ends of lines at its end. -/
inductive Chomping where
  | strip
  | clip
  | keep
deriving DecidableEq

/-- Reads empty lines before the content of a block scalar, in which indentation goes up to `indent` if
that is known. Gives the ends of lines and the greatest column. -/
def scanEmptyLines (indent : Option Nat) :
    Nat → List Char → Nat → Cursor → Option (List Char × Nat × Cursor)
  | 0, acc, deepest, at_ => some (acc, deepest, at_)
  | steps + 1, acc, deepest, at_ =>
    let spaces := (at_.run (· = ' ')).length
    let at_ := at_.skip (match indent with
      | none => spaces
      | some n => min spaces (n - at_.column))
    let deepest := max deepest at_.column
    match at_.rest with
    | [] => some (acc, deepest, at_)
    | c :: _ =>
      if c = '\t' && (indent.all fun n => at_.column < n) then none
      else if isBreak c then
        scanEmptyLines indent steps (acc ++ Cursor.breakText at_.rest) deepest at_.skipBreak
      else some (acc, deepest, at_)

/-- The lines of a block scalar as read so far. -/
structure Block where
  text : List Char := []
  /-- The end of the last line. -/
  lineEnd : List Char := []
  /-- The ends of empty lines after it. -/
  emptyLines : List Char := []
  /-- Whether the last line begins with a blank. -/
  indented : Bool := false

/-- Reads the lines of a block scalar that stand at its column. -/
def scanBlockLines (folded : Bool) (indent : Nat) : Nat → Block → Cursor → Option (Block × Cursor)
  | 0, b, at_ => some (b, at_)
  | steps + 1, b, at_ =>
    if at_.column ≠ indent || at_.rest.isEmpty then some (b, at_)
    else do
      let indented := at_.rest.head?.any isBlank
      let joint :=
        if folded && b.lineEnd = ['\n'] && !b.indented && !indented then
          (if b.emptyLines.isEmpty then [' '] else [])
        else b.lineEnd
      let line := at_.run (!isBreak ·)
      let ended := at_.skip line.length
      let lineEnd := Cursor.breakText ended.rest
      let next := if ended.rest.isEmpty then ended else ended.skipBreak
      let (emptyLines, _, next) ← scanEmptyLines (some indent) steps [] 0 next
      scanBlockLines folded indent steps
        ⟨b.text ++ joint ++ b.emptyLines ++ line, lineEnd, emptyLines, indented⟩ next

/-- The indicators after the mark of a block scalar, in either order: its indentation, if it is said, and
what is kept at its end. -/
def scanBlockHeader (at_ : Cursor) : Option (Option Nat × Chomping × Cursor) :=
  let chomping? : Char → Option Chomping
    | '+' => some .keep
    | '-' => some .strip
    | _ => none
  let digit? (c : Char) : Option Nat := if c.isDigit then some (c.toNat - 48) else none
  match at_.rest with
  | [] => some (none, .clip, at_)
  | c :: rest =>
    match chomping? c, digit? c with
    | some k, _ => match rest.head?.bind digit? with
      | some 0 => none
      | some n => some (some n, k, at_.skip 2)
      | none => some (none, k, at_.skip 1)
    | none, some 0 => none
    | none, some n => match rest.head?.bind chomping? with
      | some k => some (some n, k, at_.skip 2)
      | none => some (some n, .clip, at_.skip 1)
    | none, none => some (none, .clip, at_)

/-- Reads a block scalar after its mark, inside content that stands at column `outer`, or −1. -/
def scanBlock (folded : Bool) (outer : Int) (steps : Nat) (at_ : Cursor) :
    Option (List Char × Cursor) := do
  let (said, chomping, at_) ← scanBlockHeader at_
  let at_ ← scanLineEnd at_
  let known : Option Nat := said.map fun n => if 0 ≤ outer then outer.toNat + n else n
  let (emptyLines, deepest, at_) ← scanEmptyLines known steps [] 0 at_
  let indent := known.getD (max (max deepest (outer + 1).toNat) 1)
  let (b, at_) ← scanBlockLines folded indent steps { emptyLines } at_
  let tail := match chomping with
    | .strip => []
    | .clip => b.lineEnd
    | .keep => b.lineEnd ++ b.emptyLines
  return (b.text ++ tail, at_)

end TreeStore.Yaml
