import TreeStore.Yaml.Token

/-! Trees as a YAML text writes them, before scalars have meanings and aliases are replaced by what they
stand for. A tree ends in `broken` where its tokens go wrong or run out. -/

namespace TreeStore.Yaml

inductive Raw where
  | scalar (tag : Option String) (style : ScalarStyle) (text : String)
  | list (tag : Option String) (items : List Raw)
  | dict (tag : Option String) (entries : List (Raw × Raw))
  /-- The node with an anchor's number. -/
  | alias (number : Nat)
  | anchored (number : Nat) (node : Raw)
  | broken

namespace Raw

instance : Inhabited Raw := ⟨.broken⟩

def empty : Raw := .scalar none .plain ""

/-- The tokens still to be read, and what is known from those before. Nothing is left after a fault. -/
structure Source where
  tokens : List Token
  /-- The names of anchors with the numbers that they have last been given. -/
  anchors : List (String × Nat) := []
  /-- The handles of tags and what they stand for. -/
  handles : List (String × String) := [("!", "!"), ("!!", "tag:yaml.org,2002:")]

namespace Source

def fail (s : Source) : Source := { s with tokens := [] }

def skip (s : Source) : Source := { s with tokens := s.tokens.drop 1 }

def sees (s : Source) (ts : List Token) : Bool := s.tokens.head?.any ts.contains

/-- Gives a name the number of names that there are. -/
def define (s : Source) (name : String) : Nat × Source :=
  let n := s.anchors.length
  (n, { s with anchors := (name, n) :: s.anchors.filter (·.1 ≠ name) })

def tagText? (s : Source) (handle suffix : String) : Option String :=
  if handle = "" then some suffix else (s.handles.lookup handle).map (· ++ suffix)

def takeAnchor (s : Source) : Option String × Source :=
  match s.tokens with
  | .anchor name :: rest => (some name, { s with tokens := rest })
  | _ => (none, s)

def takeTag (s : Source) : Option (String × String) × Source :=
  match s.tokens with
  | .tag handle suffix :: rest => (some (handle, suffix), { s with tokens := rest })
  | _ => (none, s)

/-- Reads an anchor and a tag in either order. -/
def takeProperties (s : Source) : Option String × Option (String × String) × Source :=
  match s.takeAnchor with
  | (some name, s) => let (tag, s) := s.takeTag; (some name, tag, s)
  | (none, s) => match s.takeTag with
    | (some tag, s) => let (name, s) := s.takeAnchor; (name, some tag, s)
    | (none, s) => (none, none, s)

/-- Between two parts in brackets: past the comma that has to be there. -/
def nextPart (s : Source) (first : Bool) (close : Token) : Source :=
  if first || s.sees [close] then s else if s.sees [.comma] then s.skip else s.fail

end Source

/-- What may come where a node stands. -/
inductive Place where
  | flow
  | block
  /-- After a key or its colon, where items may stand in the key's column. -/
  | blockEntry
deriving DecidableEq

mutual

def node (place : Place) : Nat → Source → Raw × Source
  | 0, s => (.broken, s.fail)
  | steps + 1, s =>
    match s.tokens with
    | .alias name :: _ => match s.anchors.lookup name with
      | some number => (.alias number, s.skip)
      | none => (.broken, s.fail)
    | _ =>
      let (name, tag, s) := s.takeProperties
      let tagText := tag.map fun t => s.tagText? t.1 t.2
      if tagText = some none || s.tokens.isEmpty then (.broken, s.fail)
      else
        let tag := tagText.bind id
        match name with
        | none => content place tag false steps s
        | some name =>
          let (number, s) := s.define name
          let (n, s) := content place tag true steps s
          (.anchored number n, s)

def content (place : Place) (tag : Option String) (anchored : Bool) :
    Nat → Source → Raw × Source
  | 0, s => (.broken, s.fail)
  | steps + 1, s =>
    match s.tokens with
    | .scalar style text :: _ => (.scalar (if tag = some "!" then none else tag) style text, s.skip)
    | .flowListStart :: _ => let (items, s) := flowItems true steps s.skip; (.list tag items, s)
    | .flowDictStart :: _ => let (entries, s) := flowEntries true steps s.skip; (.dict tag entries, s)
    | t :: _ =>
      if t = .item && place = .blockEntry then
        let (items, s) := looseItems steps s; (.list tag items, s)
      else if t = .blockListStart && place ≠ .flow then
        let (items, s) := blockItems steps s.skip; (.list tag items, s)
      else if t = .blockDictStart && place ≠ .flow then
        let (entries, s) := blockEntries steps s.skip; (.dict tag entries, s)
      else if anchored || tag.isSome then (.scalar tag .plain "", s)
      else (.broken, s.fail)
    | [] => (.broken, s.fail)

/-- Reads a node, or nothing if one of some tokens is in front. -/
def nodeUnless (place : Place) (stop : List Token) : Nat → Source → Raw × Source
  | 0, s => (.broken, s.fail)
  | steps + 1, s => if s.sees stop then (empty, s) else node place steps s

/-- Reads the items of a block to its end. -/
def blockItems : Nat → Source → List Raw × Source
  | 0, s => ([.broken], s.fail)
  | steps + 1, s =>
    match s.tokens with
    | .item :: _ =>
      let (n, s) := nodeUnless .block [.item, .blockEnd] steps s.skip
      let (rest, s) := blockItems steps s
      (n :: rest, s)
    | .blockEnd :: _ => ([], s.skip)
    | _ => ([.broken], s.fail)

/-- Reads items that stand in the column of a key. -/
def looseItems : Nat → Source → List Raw × Source
  | 0, s => ([.broken], s.fail)
  | steps + 1, s =>
    match s.tokens with
    | .item :: _ =>
      let (n, s) := nodeUnless .block [.item, .key, .value, .blockEnd] steps s.skip
      let (rest, s) := looseItems steps s
      (n :: rest, s)
    | [] => ([.broken], s)
    | _ => ([], s)

/-- Reads the entries of a block to its end. -/
def blockEntries : Nat → Source → List (Raw × Raw) × Source
  | 0, s => ([(.broken, .broken)], s.fail)
  | steps + 1, s =>
    match s.tokens with
    | .blockEnd :: _ => ([], s.skip)
    | .key :: _ =>
      let (k, s) := nodeUnless .blockEntry [.key, .value, .blockEnd] steps s.skip
      let (v, s) := blockValue steps s
      let (rest, s) := blockEntries steps s
      ((k, v) :: rest, s)
    | _ => ([(.broken, .broken)], s.fail)

/-- Reads the value of an entry of a block, if it has one. -/
def blockValue : Nat → Source → Raw × Source
  | 0, s => (.broken, s.fail)
  | steps + 1, s =>
    match s.tokens with
    | .value :: _ => nodeUnless .blockEntry [.key, .value, .blockEnd] steps s.skip
    | [] => (.broken, s)
    | _ => (empty, s)

/-- Reads the items of a list in brackets. An item may be a single entry. -/
def flowItems (first : Bool) : Nat → Source → List Raw × Source
  | 0, s => ([.broken], s.fail)
  | steps + 1, s =>
    let s := s.nextPart first .flowListEnd
    match s.tokens with
    | [] => ([.broken], s)
    | .flowListEnd :: _ => ([], s.skip)
    | .key :: _ =>
      let (k, s) := flowPairKey steps s.skip
      let (v, s) := flowValue [.comma, .flowListEnd] steps s
      let torn := if s.tokens.isEmpty then [(.broken, .broken)] else []
      let (rest, s) := flowItems false steps s
      (.dict none ((k, v) :: torn) :: rest, s)
    | _ =>
      let (n, s) := node .flow steps s
      let (rest, s) := flowItems false steps s
      (n :: rest, s)

/-- Reads the key of a single entry in a list. Where nothing is written for it, the token in front is
passed over. -/
def flowPairKey : Nat → Source → Raw × Source
  | 0, s => (.broken, s.fail)
  | steps + 1, s =>
    if s.sees [.value, .comma, .flowListEnd] then (empty, s.skip) else node .flow steps s

/-- Reads the value of an entry in brackets, if it has one. -/
def flowValue (stop : List Token) : Nat → Source → Raw × Source
  | 0, s => (.broken, s.fail)
  | steps + 1, s =>
    match s.tokens with
    | .value :: _ => nodeUnless .flow stop steps s.skip
    | [] => (.broken, s)
    | _ => (empty, s)

def flowEntries (first : Bool) : Nat → Source → List (Raw × Raw) × Source
  | 0, s => ([(.broken, .broken)], s.fail)
  | steps + 1, s =>
    let s := s.nextPart first .flowDictEnd
    match s.tokens with
    | [] => ([(.broken, .broken)], s)
    | .flowDictEnd :: _ => ([], s.skip)
    | .key :: _ =>
      let (k, s) := nodeUnless .flow [.value, .comma, .flowDictEnd] steps s.skip
      let (v, s) := flowValue [.comma, .flowDictEnd] steps s
      let (rest, s) := flowEntries false steps s
      ((k, v) :: rest, s)
    | _ =>
      let (k, s) := node .flow steps s
      let v := if s.tokens.isEmpty then .broken else empty
      let (rest, s) := flowEntries false steps s
      ((k, v) :: rest, s)

end

def directives (version : Bool) (own : List (String × String)) (handles : List (String × String)) :
    List Token → Option Source
  | .version major minor :: rest =>
    if version || major ≠ 1 || (minor ≠ 1 && minor ≠ 2) then none
    else directives true own handles rest
  | .handle name text :: rest =>
    if own.any (·.1 = name) then none
    else directives version ((name, text) :: own) handles rest
  | tokens => some { tokens, handles := own ++ handles }

/-- A text's first document, and whether nothing follows it. Without a document there is no node. -/
structure Document where
  root : Option Raw
  sound : Bool

def ended : List Token → Bool
  | .documentEnd :: rest => ended rest
  | ts => ts = [.streamEnd]

/-- Reads a document's root node, wanting nothing if `optional`. -/
def document (optional : Bool) (s : Source) : Document :=
  let steps := 4 * s.tokens.length + 8
  let stop := [.documentStart, .documentEnd, .streamEnd]
  let isDirective := match s.tokens with
    | .version .. :: _ => true
    | .handle .. :: _ => true
    | _ => false
  if optional && (isDirective || s.sees stop) then ⟨some empty, ended s.tokens⟩
  else
    let (root, s) := node .block steps s
    ⟨some root, ended s.tokens⟩

def ofTokens (ts : List Token) : Document :=
  match ts with
  | [] => ⟨some .broken, false⟩
  | .streamEnd :: _ => ⟨none, true⟩
  | .version .. :: _ | .handle .. :: _ | .documentStart :: _ =>
    match directives false [] ({ tokens := [] } : Source).handles ts with
    | some s =>
      if s.sees [.documentStart] then document true s.skip else ⟨some .broken, false⟩
    | none => ⟨some .broken, false⟩
  | ts => document false { tokens := ts }

end Raw

end TreeStore.Yaml
