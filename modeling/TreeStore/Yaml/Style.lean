import TreeStore.Yaml.Token
import TreeStore.Yaml.Plain

/-! How a text is written: as a literal block if it has several lines, in single quotes if it would mean
something else without them, or else plain; and in double quotes where that cannot be done. -/

namespace TreeStore.Yaml

def isPrintable (c : Char) : Bool :=
  let n := c.toNat
  n = 0x0A || (0x20 ≤ n && n ≤ 0x7E) || (0xA0 ≤ n && n ≤ 0xD7FF)
    || (0xE000 ≤ n && n ≤ 0xFFFD && n ≠ 0xFEFF) || 0x10000 ≤ n

/-- Whether two neighbours satisfy `p` and `q`. -/
def hasNeighbours (p q : Char → Bool) : List Char → Bool
  | a :: b :: rest => (p a && q b) || hasNeighbours p q (b :: rest)
  | _ => false

def isMultiline (s : List Char) : Bool := s.any isBreak

/-- Whether a text cannot be written but with escapes, since blanks before an end of line would be lost
or since a character is not printable. -/
def needsEscapes (s : List Char) : Bool :=
  hasNeighbours (· = ' ') isBreak s || s.any (!isPrintable ·)

def isLeadingMark (c : Char) : Bool :=
  ['#', ',', '[', ']', '{', '}', '&', '*', '!', '|', '>', '\'', '"', '%', '@', '\x60'].contains c

/-- Whether a text holds a mark that has a meaning outside quotes. -/
def hasMark : List Char → Bool
  | [] => false
  | c :: rest =>
    isLeadingMark c
      || ((c = '?' || c = ':' || c = '-') && blankAhead rest)
      || ['-', '-', '-'].isPrefixOf (c :: rest) || ['.', '.', '.'].isPrefixOf (c :: rest)
      || hasNeighbours (· = ':') (fun d => isBlank d || isBreak d) rest || rest.getLast? = some ':'
      || hasNeighbours (fun d => isBlank d || isBreak d) (· = '#') (c :: rest)

def plainAllowed (s : List Char) : Bool :=
  let atEdge := fun c => c = ' ' || isBreak c
  !isMultiline s && !needsEscapes s && !hasMark s && !s.head?.any atEdge && !s.getLast?.any atEdge

def singleQuotedAllowed (s : List Char) : Bool :=
  !needsEscapes s && !hasNeighbours isBreak (· = ' ') s

def blockAllowed (s : List Char) : Bool :=
  !needsEscapes s && !s.isEmpty && s.getLast? ≠ some ' '

def styleOf (s : String) : ScalarStyle :=
  let cs := s.toList
  if cs.contains '\n' then (if blockAllowed cs then .literal else .doubleQuoted)
  else if plainAllowed cs && !needsQuotes s then .plain
  else if singleQuotedAllowed cs then .singleQuoted
  else .doubleQuoted

end TreeStore.Yaml
