import TreeStore.Json.Token
import TreeStore.Document.Reading

/-! The content of a JSON text. Values are completed on a stack of the lists and dictionaries that are
still open; at a fault, what is open ends in `broken`. -/

namespace TreeStore.Json

/-- The ways to read a scalar: a text is read as a text only. -/
def scalarOf (d : Datum) : Scalar where
  text := match d with
    | .text s => some s
    | _ => none
  natural := match d with
    | .int n => if 0 ≤ n then some n.toNat else none
    | _ => none
  flag := match d with
    | .flag b => some b
    | _ => none
  absent := .ok (d = .null)
  vacant := false
  datum := .ok d
  mismatch := .invalidType

/-- A list or dictionary that is still open, its parts last first. -/
inductive Frame where
  | list (items : List Node)
  | dict (entries : List (Node × Node)) (key : Option String)

/-- What may come next. -/
inductive Expect where
  | value
  | valueOrClose
  | commaOrClose
  | key
  | keyOrClose
  | colon

/-- The most lists and dictionaries that may be open at once. -/
def maxOpen : Nat := 127

def Frame.close : Frame → Node
  | .list items => .list .positional items.reverse
  | .dict entries _ => .dict false entries.reverse

/-- Takes a completed node into the innermost open frame. -/
def Frame.take : Frame → Node → Frame
  | .list items, n => .list (n :: items)
  | .dict entries key, n =>
    .dict (((key.map Node.ofText).getD .broken, n) :: entries) none

/-- The whole content when the text goes wrong here. -/
def breakOff (stack : List Frame) : Node :=
  stack.foldl (fun inner frame => (frame.take inner).close) .broken

def build (expect : Expect) (stack : List Frame) : List Token → Reading
  | [] => ⟨breakOff stack, false⟩
  | t :: rest =>
    let complete (stack : List Frame) (n : Node) : Reading :=
      match stack with
      | [] => ⟨n, rest.isEmpty⟩
      | frame :: outer => build .commaOrClose (frame.take n :: outer) rest
    let value : Reading :=
      match t with
      | .value d => complete stack (.scalar (scalarOf d))
      | .openList =>
        if stack.length < maxOpen then build .valueOrClose (.list [] :: stack) rest
        else ⟨breakOff (.list [] :: stack), false⟩
      | .openDict =>
        if stack.length < maxOpen then build .keyOrClose (.dict [] none :: stack) rest
        else ⟨breakOff (.dict [] none :: stack), false⟩
      | _ => ⟨breakOff stack, false⟩
    match expect, t, stack with
    | .value, _, _ => value
    | .valueOrClose, .closeList, frame :: outer => complete outer frame.close
    | .valueOrClose, _, _ => value
    | .commaOrClose, .closeList, .list items :: outer => complete outer (Frame.list items).close
    | .commaOrClose, .comma, .list items :: outer => build .value (.list items :: outer) rest
    | .commaOrClose, .closeDict, .dict entries key :: outer =>
      complete outer (Frame.dict entries key).close
    | .commaOrClose, .comma, .dict entries key :: outer => build .key (.dict entries key :: outer) rest
    | .keyOrClose, .closeDict, frame :: outer => complete outer frame.close
    | .key, .value (.text k), .dict entries _ :: outer
    | .keyOrClose, .value (.text k), .dict entries _ :: outer =>
      build .colon (.dict entries (some k) :: outer) rest
    | .colon, .colon, stack => build .value stack rest
    | _, _, stack => ⟨breakOff stack, false⟩

def read (s : String) : Reading := build .value [] (Token.ofText s)

end TreeStore.Json
