import TreeStore.Document.Fault
import TreeStore.Number.Notation

/-! The content of a YAML or JSON document: scalars, lists and dictionaries. A scalar carries every way
in which its format lets it be read, so that what a document should hold can be asked without knowing
the format. Where the text goes wrong the content ends in `broken`; whoever reads in the order of the
document meets an earlier fault first. -/

namespace TreeStore

/-- The value of a scalar where any value may stand. -/
inductive Datum where
  | null
  | flag (b : Bool)
  | int (n : Int)
  | real (x : Binary64)
  | text (s : String)
deriving DecidableEq, Repr

/-- A scalar with the ways to read it. -/
structure Scalar where
  /-- Where a text is expected. -/
  text : Option String
  /-- Where a natural number of 64 bits is expected. -/
  natural : Option Nat
  /-- Where a truth value is expected. -/
  flag : Option Bool
  /-- Where a value may be absent: whether it is. -/
  absent : Except Fault Bool
  /-- Whether it stands for an empty list or dictionary. -/
  vacant : Bool
  /-- Where any value may stand. -/
  datum : Except Fault Datum
  /-- The fault of writing it where it cannot be read. -/
  mismatch : Fault

/-- How a list is written. -/
inductive ListForm where
  | plain
  /-- With a tag of its own, which makes it no plain value. -/
  | tagged
  /-- Able to stand for a record, by position. -/
  | positional
deriving DecidableEq, Repr

inductive Node where
  | scalar (s : Scalar)
  | list (form : ListForm) (items : List Node)
  | dict (tagged : Bool) (entries : List (Node × Node))
  | broken

instance : Inhabited Node := ⟨.broken⟩

/-- A scalar that is a text and nothing else. -/
def Scalar.ofText (s : String) : Scalar where
  text := some s
  natural := none
  flag := none
  absent := .ok false
  vacant := false
  datum := .ok (.text s)
  mismatch := .invalidType

namespace Node

def ofText (s : String) : Node := .scalar (.ofText s)

/-- The fault of a node where it cannot be read. -/
def mismatch : Node → Fault
  | .scalar s => s.mismatch
  | .list .. => .invalidType
  | .dict .. => .invalidType
  | .broken => .malformed

def readText (n : Node) : Except Fault String :=
  match n with
  | .scalar ⟨some s, _, _, _, _, _, _⟩ => .ok s
  | n => .error n.mismatch

def readNatural (n : Node) : Except Fault Nat :=
  match n with
  | .scalar ⟨_, some k, _, _, _, _, _⟩ => .ok k
  | n => .error n.mismatch

def readFlag (n : Node) : Except Fault Bool :=
  match n with
  | .scalar ⟨_, _, some b, _, _, _, _⟩ => .ok b
  | n => .error n.mismatch

def readList : Node → Except Fault (List Node)
  | .list _ items => .ok items
  | .scalar s => if s.vacant then .ok [] else .error s.mismatch
  | n => .error n.mismatch

def readDict : Node → Except Fault (List (Node × Node))
  | .dict _ entries => .ok entries
  | .scalar s => if s.vacant then .ok [] else .error s.mismatch
  | n => .error n.mismatch

/-- Reads a node that may stand for an absent value. -/
def readOptional (read : Node → Except Fault α) (n : Node) : Except Fault (Option α) :=
  match n with
  | .scalar s => do if ← s.absent then return none else some <$> read n
  | .broken => .error .malformed
  | n => some <$> read n

def readName (kind : NameKind) (n : Node) : Except Fault Name := do
  match Name.ofText? (← n.readText) with
  | some name => return name
  | none => throw (.blankName kind)

mutual

/-- The first fault of a node as a plain value, in the order of the document. -/
def plainFault? : Node → Option Fault
  | .scalar s => match s.datum with
    | .ok _ => none
    | .error fault => some fault
  | .list form items => if form = .tagged then some .malformed else plainFaultIn? items
  | .dict tagged entries => if tagged then some .malformed else plainFaultOf? entries
  | .broken => some .malformed

def plainFaultIn? : List Node → Option Fault
  | [] => none
  | n :: rest => plainFault? n <|> plainFaultIn? rest

def plainFaultOf? : List (Node × Node) → Option Fault
  | [] => none
  | (k, v) :: rest => plainFault? k <|> plainFault? v <|> plainFaultOf? rest

end

/-- Reads any plain value, or tells that it is no scalar. -/
def readDatum (n : Node) : Except Fault Datum :=
  match n with
  | .scalar s => s.datum
  | n => .error (n.plainFault?.getD .notScalar)

end Node

end TreeStore
