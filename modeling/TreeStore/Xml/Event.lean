import TreeStore.Xml.Tag

/-! The markup of an XML text, in order: tags, and what else stands between angle brackets. Text is
passed over. A closing tag always closes the innermost open one; anything else ends the events with a
fault. Names are not checked further, and the end of the text may stand for a missing `>` of a closing
tag or an instruction. -/

namespace TreeStore.Xml

inductive Event where
  | start (tag : Tag)
  /-- A tag that closes itself. -/
  | empty (tag : Tag)
  /-- Closes the innermost open tag. -/
  | close
  /-- A comment, a section of characters, an instruction or a document type. -/
  | other
deriving DecidableEq, Repr

/-- The events of a text, and the fault at which it had to be left. -/
structure Events where
  list : List Event
  fault? : Option Fault

namespace Event

/-- Where a character stands. Collected characters are last first. -/
inductive Mode where
  | outside
  /-- After `<`. -/
  | opened
  | tag (quote : Option Char) (run : List Char)
  | closing (run : List Char)
  | instruction (run : List Char)
  /-- After `<!`. -/
  | bang
  | comment (run : List Char)
  | section (run : List Char)
  | doctype (run : List Char)

/-- Whether the small letters of a text begin with a word. -/
def beginsWith (word : String) (s : List Char) : Bool :=
  word.toList.isPrefixOf (s.map Char.toLower)

/-- What a character or the end of the text does: the events so far, the names of the open tags, and
the mode after it. -/
abbrev Step := Except Fault (Option Event × List String × Mode)

def endTag (names : List String) (run : List Char) : Step := do
  match run with
  | '/' :: inner =>
    let tag ← Tag.ofText inner.reverse
    return (some (.empty tag), names, .outside)
  | _ =>
    let tag ← Tag.ofText run.reverse
    return (some (.start tag), tag.name :: names, .outside)

/-- A closing tag; blanks after its name do not count. -/
def endClosing (names : List String) (run : List Char) : Step :=
  let trimmed := run.dropWhile isSpace
  let name := String.ofList (if trimmed.isEmpty then run else trimmed).reverse
  match names with
  | open_ :: outer => if name = open_ then .ok (some .close, outer, .outside) else .error .markup
  | [] => .error .markup

/-- An instruction ends in a question mark of its own. -/
def endInstruction (names : List String) (run : List Char) : Step :=
  match run with
  | '?' :: _ :: _ => .ok (some .other, names, .outside)
  | _ => .error .markup

def endIf (valid : Bool) (names : List String) : Step :=
  if valid then .ok (some .other, names, .outside) else .error .markup

def balance (run : List Char) : Int :=
  (run.countP (· = '<') : Int) - run.countP (· = '>')

def step (names : List String) (mode : Mode) (c : Char) : Step :=
  match mode with
  | .outside => .ok (none, names, if c = '<' then .opened else .outside)
  | .opened =>
    if c = '!' then .ok (none, names, .bang)
    else if c = '/' then .ok (none, names, .closing [])
    else if c = '?' then .ok (none, names, .instruction [])
    else if c = '>' then endTag names []
    else .ok (none, names, .tag (if c = '"' ∨ c = '\'' then some c else none) [c])
  | .tag none run =>
    if c = '>' then endTag names run
    else .ok (none, names, .tag (if c = '"' ∨ c = '\'' then some c else none) (c :: run))
  | .tag (some q) run => .ok (none, names, .tag (if c = q then none else some q) (c :: run))
  | .closing run => if c = '>' then endClosing names run else .ok (none, names, .closing (c :: run))
  | .instruction run =>
    if c = '>' then endInstruction names run else .ok (none, names, .instruction (c :: run))
  | .bang =>
    if c = '[' then .ok (none, names, .section [c])
    else if c = '-' then .ok (none, names, .comment [c])
    else if c = 'D' ∨ c = 'd' then .ok (none, names, .doctype [c])
    else .error .markup
  | .comment run =>
    match c, run with
    | '>', '-' :: '-' :: _ :: _ :: _ => endIf (beginsWith "--" run.reverse) names
    | _, _ => .ok (none, names, .comment (c :: run))
  | .section run =>
    match c, run with
    | '>', ']' :: ']' :: inner => endIf (beginsWith "[cdata[" inner.reverse) names
    | _, _ => .ok (none, names, .section (c :: run))
  | .doctype run =>
    if c = '>' ∧ balance run = 0 then
      endIf (beginsWith "doctype" run.reverse && (run.reverse.drop 7).any (!isSpace ·)) names
    else .ok (none, names, .doctype (c :: run))

def finish (names : List String) (mode : Mode) : Events :=
  let last : Step := match mode with
    | .outside | .opened => .ok (none, names, .outside)
    | .closing run => endClosing names run
    | .instruction run => endInstruction names run
    | _ => .error .markup
  match last with
  | .ok (event, _) => ⟨event.toList, none⟩
  | .error fault => ⟨[], some fault⟩

def scan (names : List String) (mode : Mode) : List Char → Events
  | [] => finish names mode
  | c :: rest =>
    match step names mode c with
    | .error fault => ⟨[], some fault⟩
    | .ok (event, names, mode) =>
      let later := scan names mode rest
      ⟨event.toList ++ later.list, later.fault?⟩

end Event

def Events.ofText (s : String) : Events := Event.scan [] .outside s.toList

end TreeStore.Xml
