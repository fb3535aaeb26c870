import TreeStore.Yaml.Lexer
import TreeStore.Yaml.Raw
import TreeStore.Yaml.Plain
import TreeStore.Document.Reading

/-! The content of a YAML text. Tags of the core schema decide what a scalar means, tags of the text's
own make it no plain value, and aliases are replaced by what they stand for, up to limits. -/

namespace TreeStore.Yaml

def coreTag (word : String) : String := "tag:yaml.org,2002:" ++ word

/-- The value that a tag asks for, where the text is such a value. -/
def orInvalid (x : Option Datum) : Except Fault Datum :=
  match x with
  | some d => .ok d
  | none => .error .invalidValue

/-- The meaning of a scalar, whatever its own tags. -/
def meaning (tag : Option String) (style : ScalarStyle) (text : String) : Except Fault Datum :=
  match tag with
  | none => if style = .plain then datumOf text else .ok (.text text)
  | some tag =>
    if tag = coreTag "bool" then orInvalid ((flag? text).map .flag)
    else if tag = coreTag "int" then
      match int? text with
      | some n => .ok (.int n)
      | none => .error (if isWide text then .invalidType else .invalidValue)
    else if tag = coreTag "float" then orInvalid ((real? text).map .real)
    else if tag = coreTag "null" then orInvalid (if isNull text then some .null else none)
    else .ok (.text text)

/-- Whether a tag is one of the text's own. -/
def isOwnTag (tag : Option String) : Bool := tag.any fun t => t.toList.head? = some '!'

/-- Whether a scalar may be read as what its text spells, given the tag that says so. -/
def isSpelled (tag : Option String) (style : ScalarStyle) (word : String) : Bool :=
  style = .plain || (style = .literal && tag = some (coreTag word))

def isAbsent (tag : Option String) (style : ScalarStyle) (text : String) : Except Fault Bool :=
  if style ≠ .plain then .ok false
  else match tag with
    | none => .ok (text = "" || isNull text)
    | some tag =>
      if tag ≠ coreTag "null" then .ok false
      else if isNull text then .ok true
      else .error .invalidValue

def scalarOf (tag : Option String) (style : ScalarStyle) (text : String) : Scalar where
  text := some text
  natural := if isSpelled tag style "int" then unsigned? 64 text.toList else none
  flag := if isSpelled tag style "bool" then flag? text else none
  absent := isAbsent tag style text
  vacant := style = .plain && text = ""
  datum := if isOwnTag tag then .error .malformed else meaning tag style text
  mismatch := match meaning tag style text with
    | .error fault => fault
    | .ok _ => .invalidType

def void : Scalar where
  text := none
  natural := none
  flag := none
  absent := .ok true
  vacant := true
  datum := .ok .null
  mismatch := .malformed

namespace Raw

mutual

/-- The anchored nodes by number, those that begin later first. -/
def anchoredNodes (acc : List (Nat × Raw)) : Raw → List (Nat × Raw)
  | .anchored number n => anchoredNodes ((number, n) :: acc) n
  | .list _ items => anchoredNodesIn acc items
  | .dict _ entries => anchoredNodesOf acc entries
  | _ => acc

def anchoredNodesIn (acc : List (Nat × Raw)) : List Raw → List (Nat × Raw)
  | [] => acc
  | n :: rest => anchoredNodesIn (anchoredNodes acc n) rest

def anchoredNodesOf (acc : List (Nat × Raw)) : List (Raw × Raw) → List (Nat × Raw)
  | [] => acc
  | (k, v) :: rest => anchoredNodesOf (anchoredNodes (anchoredNodes acc k) v) rest

end

mutual

/-- How many starts and ends of nodes there are. -/
def eventCount : Raw → Nat
  | .anchored _ n => eventCount n
  | .list _ items => 2 + eventCountIn items
  | .dict _ entries => 2 + eventCountOf entries
  | _ => 1

def eventCountIn : List Raw → Nat
  | [] => 0
  | n :: rest => eventCount n + eventCountIn rest

def eventCountOf : List (Raw × Raw) → Nat
  | [] => 0
  | (k, v) :: rest => eventCount k + eventCount v + eventCountOf rest

end

mutual

/-- The content of a node. At most `depth` lists and dictionaries may be open around another one, and
`jumps` aliases may still be followed; what is left of these is given back. -/
def resolve (anchors : List (Nat × Raw)) : Nat → Nat → Nat → Raw → Node × Nat
  | 0, _, jumps, _ => (.broken, jumps)
  | _ + 1, _, jumps, .broken => (.broken, jumps)
  | _ + 1, _, jumps, .scalar tag style text => (.scalar (scalarOf tag style text), jumps)
  | steps + 1, depth, jumps, .anchored _ n => resolve anchors steps depth jumps n
  | steps + 1, depth, jumps, .alias number =>
    match jumps, anchors.lookup number with
    | jumps + 1, some n => resolve anchors steps depth jumps n
    | _, _ => (.broken, 0)
  | steps + 1, depth, jumps, .list tag items =>
    let form : ListForm := if isOwnTag tag then .tagged else .plain
    match depth with
    | 0 => (.list form [.broken], jumps)
    | depth + 1 =>
      let (ns, jumps) := resolveItems anchors steps depth jumps items
      (.list form ns, jumps)
  | steps + 1, depth, jumps, .dict tag entries =>
    match depth with
    | 0 => (.dict (isOwnTag tag) [(.broken, .broken)], jumps)
    | depth + 1 =>
      let (es, jumps) := resolveEntries anchors steps depth jumps entries
      (.dict (isOwnTag tag) es, jumps)

def resolveItems (anchors : List (Nat × Raw)) : Nat → Nat → Nat → List Raw → List Node × Nat
  | 0, _, jumps, _ => ([.broken], jumps)
  | _ + 1, _, jumps, [] => ([], jumps)
  | steps + 1, depth, jumps, n :: rest =>
    let (x, jumps) := resolve anchors steps depth jumps n
    let (xs, jumps) := resolveItems anchors steps depth jumps rest
    (x :: xs, jumps)

def resolveEntries (anchors : List (Nat × Raw)) :
    Nat → Nat → Nat → List (Raw × Raw) → List (Node × Node) × Nat
  | 0, _, jumps, _ => ([(.broken, .broken)], jumps)
  | _ + 1, _, jumps, [] => ([], jumps)
  | steps + 1, depth, jumps, (k, v) :: rest =>
    let (x, jumps) := resolve anchors steps depth jumps k
    let (y, jumps) := resolve anchors steps depth jumps v
    let (xs, jumps) := resolveEntries anchors steps depth jumps rest
    ((x, y) :: xs, jumps)

end

end Raw

/-- The most lists and dictionaries that may be open at once. -/
def maxOpen : Nat := 128

/-- How many aliases may be followed for each start or end of a node. -/
def jumpsPerEvent : Nat := 100

/-- The content of a tree and of what its aliases stand for. -/
def contentOf (root : Raw) : Node :=
  let events := root.eventCount
  -- every list on a way down is one of the tree, and there is one alias at most before each
  let steps := 2 * (maxOpen + 2) * (events + 2)
  (root.resolve (root.anchoredNodes []) steps maxOpen (jumpsPerEvent * events)).1

def read (s : String) : Reading :=
  if !s.toList.all isAllowed then ⟨.broken, false⟩
  else
    let document := Raw.ofTokens (tokens s)
    match document.root with
    | none => ⟨.scalar void, document.sound⟩
    | some root => ⟨contentOf root, document.sound⟩

end TreeStore.Yaml
