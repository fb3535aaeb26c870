import TreeStore.Yaml.Token
import TreeStore.Number.Numeral

/-! Tokens that begin with a mark and a name: anchors and aliases, tags, and directives. `none` means
that the text is at fault. -/

namespace TreeStore.Yaml

/-- Reads the name of an anchor or alias after its mark. -/
def scanAnchorName (at_ : Cursor) : Option (String × Cursor) :=
  let name := at_.run isWord
  let at_ := at_.skip name.length
  let closed := blankAhead at_.rest
    || at_.rest.head?.any fun c => ['?', ':', ',', ']', '}', '%', '@', '\x60'].contains c
  if name.isEmpty || !closed then none else some (String.ofList name, at_)

/-- Reads a tag handle: an exclamation mark, and a name that a second one may end. -/
def scanHandle (at_ : Cursor) : Option (List Char × Cursor) :=
  match at_.rest with
  | '!' :: rest =>
    let name := rest.takeWhile isWord
    let at_ := at_.skip (name.length + 1)
    if at_.rest.head? = some '!' then some ('!' :: name ++ ['!'], at_.skip 1)
    else some ('!' :: name, at_)
  | _ => none

/-- Reads the octet of an escape, two digits after a per cent sign. -/
def octet? : List Char → Option Nat
  | '%' :: a :: b :: _ => Numeral.natural? 16 [a, b]
  | _ => none

/-- How many octets a character takes, and the first one's share of its code. -/
def octetCount? (octet : Nat) : Option (Nat × Nat) :=
  if octet < 0x80 then some (1, octet)
  else if octet < 0xC0 then none
  else if octet < 0xE0 then some (2, octet - 0xC0)
  else if octet < 0xF0 then some (3, octet - 0xE0)
  else if octet < 0xF8 then some (4, octet - 0xF0)
  else none

def scanOctets : Nat → Nat → Cursor → Option (Nat × Cursor)
  | 0, code, at_ => some (code, at_)
  | n + 1, code, at_ => do
    let octet ← octet? at_.rest
    if octet < 0x80 || 0xC0 ≤ octet then none
    else scanOctets n (code * 64 + (octet - 0x80)) (at_.skip 3)

/-- Reads an escaped character. A code of no character gives the replacement character. -/
def scanEscape (at_ : Cursor) : Option (Char × Cursor) := do
  let (count, share) ← octetCount? (← octet? at_.rest)
  let (code, at_) ← scanOctets (count - 1) share (at_.skip 3)
  return (if code.isValidChar then Char.ofNat code else '\ufffd', at_)

def isUriChar (wide : Bool) (c : Char) : Bool :=
  isWord c
    || [';', '/', '?', ':', '@', '&', '=', '+', '$', '.', '%', '!', '~', '*', '\'', '(', ')'].contains c
    || (wide && [',', '[', ']'].contains c)

/-- Reads the text of a tag, which may hold commas and brackets if it is `wide`. -/
def scanUri (wide : Bool) : Nat → List Char → Cursor → Option (List Char × Cursor)
  | 0, acc, at_ => some (acc.reverse, at_)
  | steps + 1, acc, at_ =>
    match at_.rest with
    | [] => some (acc.reverse, at_)
    | c :: _ =>
      if !isUriChar wide c then some (acc.reverse, at_)
      else if c = '%' then do
        let (x, at_) ← scanEscape at_
        scanUri wide steps (x :: acc) at_
      else scanUri wide steps (c :: acc) (at_.skip 1)

/-- Reads a text of a tag that is not empty. -/
def scanUri1 (wide : Bool) (at_ : Cursor) : Option (List Char × Cursor) := do
  let (uri, at_) ← scanUri wide at_.rest.length [] at_
  if uri.isEmpty then none else return (uri, at_)

/-- Reads a tag that has its whole text between angle brackets. -/
def scanVerbatimTag (at_ : Cursor) : Option (Token × Cursor) := do
  let (uri, at_) ← scanUri1 true (at_.skip 2)
  if at_.rest.head? = some '>' then return (.tag "" (String.ofList uri), at_.skip 1) else none

/-- Reads a tag made of a handle and a suffix. A lone mark is a tag without a handle. -/
def scanShortTag (at_ : Cursor) : Option (Token × Cursor) := do
  let (handle, at_) ← scanHandle at_
  if 1 < handle.length && handle.getLast? = some '!' then
    let (suffix, at_) ← scanUri1 false at_
    return (.tag (String.ofList handle) (String.ofList suffix), at_)
  else
    let (rest, at_) ← scanUri false at_.rest.length [] at_
    match handle.drop 1 ++ rest with
    | [] => return (.tag "" "!", at_)
    | suffix => return (.tag "!" (String.ofList suffix), at_)

/-- Reads a tag, and what has to follow it. -/
def scanTag (inFlow : Bool) (at_ : Cursor) : Option (Token × Cursor) := do
  let (tag, at_) ← match at_.rest with
    | '!' :: '<' :: _ => scanVerbatimTag at_
    | _ => scanShortTag at_
  if blankAhead at_.rest || (inFlow && at_.rest.head? = some ',') then return (tag, at_) else none

def scanVersionNumber (at_ : Cursor) : Option (Nat × Cursor) := do
  let digits := at_.run Char.isDigit
  if 9 < digits.length then none
  else return (← Numeral.natural? 10 digits, at_.skip digits.length)

def scanVersion (at_ : Cursor) : Option (Token × Cursor) := do
  let (major, at_) ← scanVersionNumber (at_.skipWhile isBlank)
  if at_.rest.head? ≠ some '.' then none
  else
    let (minor, at_) ← scanVersionNumber (at_.skip 1)
    return (.version major minor, at_)

def scanHandleDirective (at_ : Cursor) : Option (Token × Cursor) := do
  let (handle, at_) ← scanHandle (at_.skipWhile isBlank)
  if (1 < handle.length && handle.getLast? ≠ some '!') || !at_.rest.head?.any isBlank then none
  else
    let (text, at_) ← scanUri1 true (at_.skipWhile isBlank)
    if blankAhead at_.rest then return (.handle (String.ofList handle) (String.ofList text), at_)
    else none

/-- To the end of a line on which only blanks and a comment may stand, and past it. -/
def scanLineEnd (at_ : Cursor) : Option Cursor :=
  let at_ := at_.skipWhile isBlank
  let at_ := if at_.rest.head? = some '#' then at_.skipWhile (!isBreak ·) else at_
  match at_.rest with
  | [] => some at_
  | c :: _ => if isBreak c then some at_.skipBreak else none

/-- Reads a directive after its mark, with the rest of its line. -/
def scanDirective (at_ : Cursor) : Option (Token × Cursor) := do
  let name := at_.run isWord
  let at_ := at_.skip name.length
  if !blankAhead at_.rest then none
  else
    let (token, at_) ← match String.ofList name with
      | "YAML" => scanVersion at_
      | "TAG" => scanHandleDirective at_
      | _ => none
    return (token, ← scanLineEnd at_)

end TreeStore.Yaml
