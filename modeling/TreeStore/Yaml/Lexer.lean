import TreeStore.Yaml.ScalarText

/-! The tokens of a YAML text. A colon may show that a token some places back was a key, so tokens wait
in a queue until no colon can reach them. Where the text is at fault, the tokens still waiting are
lost. -/

namespace TreeStore.Yaml

/-- A place where a key may have begun. -/
structure PossibleKey where
  /-- Whether nothing but a key may stand there. -/
  required : Bool
  /-- The number of its first token. -/
  number : Nat
  start : Cursor

structure Lexer where
  /-- The number of characters of the whole text, which bounds every scan. -/
  size : Nat
  cursor : Cursor
  /-- Tokens that have been read but not given out. -/
  waiting : List Token := []
  /-- How many tokens have been given out. -/
  given : Nat := 0
  /-- The column of the innermost open block, or −1. -/
  indent : Int := -1
  /-- The columns of the blocks around it. -/
  outerIndents : List Int := []
  /-- The last place where a key may have begun between the innermost brackets. -/
  possibleKey : Option PossibleKey := none
  /-- Those between the brackets around them. -/
  outerKeys : List (Option PossibleKey) := []
  /-- Whether a key may begin here. -/
  keyAllowed : Bool := true

namespace Lexer

def inFlow (lx : Lexer) : Bool := !lx.outerKeys.isEmpty

def push (lx : Lexer) (t : Token) : Lexer := { lx with waiting := lx.waiting ++ [t] }

/-- Puts tokens in front of the one with a number. -/
def insertBefore (lx : Lexer) (number : Nat) (ts : List Token) : Lexer :=
  let n := number - lx.given
  { lx with waiting := lx.waiting.take n ++ ts ++ lx.waiting.drop n }

def skipToToken : Nat → Lexer → Lexer
  | 0, lx => lx
  | steps + 1, lx =>
    let at_ := lx.cursor
    let at_ := if at_.column = 0 && at_.rest.head? = some '\ufeff' then at_.skip 1 else at_
    let at_ := at_.skipWhile fun c => c = ' ' || (c = '\t' && (lx.inFlow || !lx.keyAllowed))
    let at_ := if at_.rest.head? = some '#' then at_.skipWhile (!isBreak ·) else at_
    if at_.rest.head?.any isBreak then
      skipToToken steps { lx with cursor := at_.skipBreak, keyAllowed := lx.keyAllowed || !lx.inFlow }
    else { lx with cursor := at_ }

/-- Whether it is too late for a key that began in `k` to be followed by its colon. -/
def tooLate (lx : Lexer) (k : PossibleKey) : Bool :=
  k.start.line < lx.cursor.line || k.start.index + 1024 < lx.cursor.index

/-- Gives a key up if it is too late for it. -/
def expire (lx : Lexer) : Option PossibleKey → Option (Option PossibleKey)
  | none => some none
  | some k => if lx.tooLate k then (if k.required then none else some none) else some (some k)

def expireKeys (lx : Lexer) : Option Lexer := do
  return { lx with
    possibleKey := ← lx.expire lx.possibleKey
    outerKeys := ← lx.outerKeys.mapM lx.expire }

def dropKey (lx : Lexer) : Option Lexer :=
  if lx.possibleKey.any (·.required) then none else some { lx with possibleKey := none }

def noteKey (lx : Lexer) : Option Lexer :=
  if lx.keyAllowed then do
    let lx ← lx.dropKey
    let required := !lx.inFlow && lx.indent = lx.cursor.column
    return { lx with possibleKey := some ⟨required, lx.given + lx.waiting.length, lx.cursor⟩ }
  else some lx

/-- Closes the blocks that stand right of a column. -/
def closeBlocks (lx : Lexer) (column : Int) : Lexer :=
  if lx.inFlow then lx
  else
    let indents := lx.indent :: lx.outerIndents
    let kept := indents.dropWhile (column < ·)
    { lx with
      waiting := lx.waiting ++ List.replicate (indents.length - kept.length) .blockEnd
      indent := kept.head?.getD (-1)
      outerIndents := kept.drop 1 }

/-- Opens a block at a column, in front of the token with a number, unless one stands there. -/
def openBlock (lx : Lexer) (column : Nat) (number : Nat) (t : Token) : Lexer :=
  if lx.inFlow || column ≤ lx.indent then lx
  else
    { lx.insertBefore number [t] with
      indent := column
      outerIndents := lx.indent :: lx.outerIndents }

def openBlockHere (lx : Lexer) (t : Token) : Lexer :=
  lx.openBlock lx.cursor.column (lx.given + lx.waiting.length) t

/-- Takes a token that a mark of `n` characters stands for. -/
def mark (lx : Lexer) (n : Nat) (t : Token) : Lexer :=
  { lx.push t with cursor := lx.cursor.skip n }

def take (lx : Lexer) (r : Token × Cursor) : Lexer := { lx.push r.1 with cursor := r.2 }

/-- Ends all blocks before a directive or the mark of a document. -/
def endContent (lx : Lexer) : Option Lexer := do
  let lx ← (lx.closeBlocks (-1)).dropKey
  return { lx with keyAllowed := false }

def lexEnd (lx : Lexer) : Option Lexer := do return (← lx.endContent).push .streamEnd

def lexDirective (lx : Lexer) : Option Lexer := do
  let lx ← lx.endContent
  return lx.take (← scanDirective (lx.cursor.skip 1))

def lexOpenBracket (lx : Lexer) (t : Token) : Option Lexer := do
  let lx ← lx.noteKey
  return { lx with
    possibleKey := none, outerKeys := lx.possibleKey :: lx.outerKeys, keyAllowed := true }.mark 1 t

def lexCloseBracket (lx : Lexer) (t : Token) : Option Lexer := do
  let lx ← lx.dropKey
  let lx := match lx.outerKeys with
    | [] => lx
    | key :: outer => { lx with possibleKey := key, outerKeys := outer }
  return { lx with keyAllowed := false }.mark 1 t

def lexComma (lx : Lexer) : Option Lexer := do
  return { ← lx.dropKey with keyAllowed := true }.mark 1 .comma

/-- Opens a block for an item or a key, where one may begin. -/
def lexBlockPart (lx : Lexer) (start : Token) : Option Lexer :=
  if lx.inFlow then some lx
  else if lx.keyAllowed then some (lx.openBlockHere start)
  else none

def lexItem (lx : Lexer) : Option Lexer := do
  let lx ← (← lx.lexBlockPart .blockListStart).dropKey
  return { lx with keyAllowed := true }.mark 1 .item

def lexKey (lx : Lexer) : Option Lexer := do
  let lx ← (← lx.lexBlockPart .blockDictStart).dropKey
  return { lx with keyAllowed := !lx.inFlow }.mark 1 .key

def lexValue (lx : Lexer) : Option Lexer :=
  match lx.possibleKey with
  | some k =>
    let lx := (lx.insertBefore k.number [.key]).openBlock k.start.column k.number .blockDictStart
    some ({ lx with possibleKey := none, keyAllowed := false }.mark 1 .value)
  | none => do
    let lx ← lx.lexBlockPart .blockDictStart
    return { lx with keyAllowed := !lx.inFlow }.mark 1 .value

/-- Reads the name of an anchor or alias after its mark. -/
def lexAnchor (lx : Lexer) (token : String → Token) : Option Lexer := do
  let lx ← lx.noteKey
  let (name, at_) ← scanAnchorName (lx.cursor.skip 1)
  return { lx with keyAllowed := false }.take (token name, at_)

def lexTag (lx : Lexer) : Option Lexer := do
  let lx ← lx.noteKey
  return { lx with keyAllowed := false }.take (← scanTag lx.inFlow lx.cursor)

def lexBlockScalar (lx : Lexer) (folded : Bool) : Option Lexer := do
  let lx ← lx.dropKey
  let (text, at_) ← scanBlock folded lx.indent (lx.size + 1) (lx.cursor.skip 1)
  return { lx with keyAllowed := true }.take
    (.scalar (if folded then .folded else .literal) (String.ofList text), at_)

def lexQuoted (lx : Lexer) (single : Bool) : Option Lexer := do
  let lx ← lx.noteKey
  let (text, at_) ← scanQuoted single (lx.size + 1) [] (lx.cursor.skip 1)
  return { lx with keyAllowed := false }.take
    (.scalar (if single then .singleQuoted else .doubleQuoted) (String.ofList text), at_)

def lexPlain (lx : Lexer) : Option Lexer := do
  let lx ← lx.noteKey
  let (text, broken, at_) ←
    scanPlain lx.inFlow (lx.indent + 1).toNat (lx.size + 1) [] {} lx.cursor
  return { lx with keyAllowed := broken }.take (.scalar .plain (String.ofList text), at_)

/-- Whether a plain scalar may begin with `c`, given what follows it. -/
def beginsPlain (inFlow : Bool) (c : Char) (rest : List Char) : Bool :=
  match c with
  | '-' => !rest.head?.any isBlank
  | '?' | ':' => !inFlow && !blankAhead rest
  | c => c ∉ ['#', '&', '*', '!', '|', '>', '\'', '"', '%', '@', '\x60', ',', '[', ']', '{', '}']
    && !isBlank c && !isBreak c

/-- Reads the token that begins with `c`. -/
def lexAt (lx : Lexer) (c : Char) (rest : List Char) : Option Lexer :=
  if c = '%' && lx.cursor.column = 0 then lx.lexDirective
  else if lx.cursor.atDocumentMark then
    return (← lx.endContent).mark 3 (if c = '-' then .documentStart else .documentEnd)
  else match c with
    | '[' => lx.lexOpenBracket .flowListStart
    | '{' => lx.lexOpenBracket .flowDictStart
    | ']' => lx.lexCloseBracket .flowListEnd
    | '}' => lx.lexCloseBracket .flowDictEnd
    | ',' => lx.lexComma
    | '*' => lx.lexAnchor .alias
    | '&' => lx.lexAnchor .anchor
    | '!' => lx.lexTag
    | '\'' => lx.lexQuoted true
    | '"' => lx.lexQuoted false
    | c =>
      if c = '-' && blankAhead rest then lx.lexItem
      else if c = '?' && (lx.inFlow || blankAhead rest) then lx.lexKey
      else if c = ':' && (lx.inFlow || blankAhead rest) then lx.lexValue
      else if c = '|' && !lx.inFlow then lx.lexBlockScalar false
      else if c = '>' && !lx.inFlow then lx.lexBlockScalar true
      else if beginsPlain lx.inFlow c rest then lx.lexPlain
      else none

def lexNext (lx : Lexer) : Option Lexer := do
  let lx ← (skipToToken (lx.size + 1) lx).expireKeys
  let lx := lx.closeBlocks lx.cursor.column
  match lx.cursor.rest with
  | [] =>
    -- the end of a text ends its last line
    let at_ := lx.cursor
    let at_ := if at_.column = 0 then at_ else { at_ with line := at_.line + 1, column := 0 }
    { lx with cursor := at_ }.lexEnd
  | c :: rest => lx.lexAt c rest

/-- How many waiting tokens no key can be put in front of. -/
def readyCount (lx : Lexer) : Nat :=
  (lx.possibleKey :: lx.outerKeys).foldl
    (fun n key => match key with
      | some k => min n (k.number - lx.given)
      | none => n)
    lx.waiting.length

/-- The tokens in the order they are given out, up to the end of the text or its first fault. -/
def run : Nat → Lexer → List Token
  | 0, _ => []
  | steps + 1, lx =>
    match lx.lexNext.bind (·.expireKeys) with
    | none => []
    | some lx =>
      let n := lx.readyCount
      let ready := lx.waiting.take n
      if ready.getLast? = some .streamEnd then ready
      else ready ++ run steps { lx with waiting := lx.waiting.drop n, given := lx.given + n }

end Lexer

def isAllowed (c : Char) : Bool :=
  let n := c.toNat
  n = 0x09 || n = 0x0A || n = 0x0D || (0x20 ≤ n && n ≤ 0x7E) || n = 0x85 || (0xA0 ≤ n && n ≤ 0xD7FF)
    || (0xE000 ≤ n && n ≤ 0xFFFD) || 0x10000 ≤ n

def tokens (s : String) : List Token :=
  Lexer.run (s.length + 2) { size := s.length, cursor := { rest := s.toList } }

end TreeStore.Yaml
