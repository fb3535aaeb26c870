/-! Identifiers that may stand in generated SQL: an ASCII letter or underscore, then letters, digits
and underscores, at most 63 bytes in all. Quoting is separate and accepts every text. -/

namespace TreeStore

/-- Why a text is no identifier. -/
inductive IdentFault where
  | empty
  | tooLong
  | badStart
  | badCharacter
deriving DecidableEq, Repr

namespace IdentFault

def message : IdentFault → String
  | .empty => "identifier is empty"
  | .tooLong => "identifier is longer than 63 characters"
  | .badStart => "identifier must start with a letter or underscore"
  | .badCharacter => "identifier may only contain letters, digits and underscores"

end IdentFault

namespace Ident

def maxBytes : Nat := 63

def isStart (c : Char) : Bool := c.isAlpha || c == '_'

def isPart (c : Char) : Bool := c.isAlphanum || c == '_'

/-- What is wrong with a name. Its length counts before its characters do. -/
def fault? (name : String) : Option IdentFault :=
  match name.toList with
  | [] => some .empty
  | c :: rest =>
    if maxBytes < name.utf8ByteSize then some .tooLong
    else if !isStart c then some .badStart
    else if !rest.all isPart then some .badCharacter
    else none

def isValid (name : String) : Bool := (fault? name).isNone

/-- Writes `mark` twice wherever it occurs. -/
def double (mark : Char) : List Char → List Char
  | [] => []
  | c :: rest => if c = mark then mark :: mark :: double mark rest else c :: double mark rest

/-- A text between two marks, with the marks inside doubled. -/
def enclose (mark : Char) (s : String) : String :=
  String.ofList (mark :: double mark s.toList ++ [mark])

def quote (name : String) : String := enclose '"' name

def quoteLiteral (value : String) : String := enclose '\'' value

end Ident

/-- A name refused as an identifier, and what it names. -/
structure IdentRejection where
  context : String
  name : String
  fault : IdentFault
deriving DecidableEq, Repr

def IdentRejection.message (r : IdentRejection) : String :=
  s!"[E006] Invalid identifier '{r.name}' for {r.context}: {r.fault.message}"

def Ident.check (name context : String) : Except IdentRejection Unit :=
  match Ident.fault? name with
  | none => .ok ()
  | some fault => .error ⟨context, name, fault⟩

end TreeStore
