import TreeStore.Json.Reader
import TreeStore.Text.Map

/-! JSON values. The fields of an object are in the order of their names; of a repeated field the last
value stays. -/

namespace TreeStore.Json

inductive Value where
  | null
  | flag (b : Bool)
  | int (n : Int)
  | real (x : Binary64)
  | text (s : String)
  | list (items : List Value)
  | object (fields : List (String × Value))

instance : Inhabited Value := ⟨.null⟩

namespace Value

def ofDatum : Datum → Value
  | .null => .null
  | .flag b => .flag b
  | .int n => .int n
  | .real x => .real x
  | .text s => .text s

/-- Fields by name, the last of a name winning. -/
def objectOf (fields : List (String × Value)) : Value := .object (TextMap.ofList fields).entries

mutual

def ofNode : Node → Except Fault Value
  | .scalar s => ofDatum <$> s.datum
  | .list _ items => .list <$> ofItems items
  | .dict _ entries => objectOf <$> ofEntries entries
  | .broken => .error .malformed

def ofItems : List Node → Except Fault (List Value)
  | [] => .ok []
  | n :: rest => do return (← ofNode n) :: (← ofItems rest)

def ofEntries : List (Node × Node) → Except Fault (List (String × Value))
  | [] => .ok []
  | (k, v) :: rest => do
    let key ← k.readText
    let value ← ofNode v
    return (key, value) :: (← ofEntries rest)

end

def ofText (s : String) : Except Fault Value := (Json.read s).decode ofNode

/-- The text of a number, if the value is one. -/
def numberText? : Value → Option String
  | .int n => some (toString n)
  | .real x => some (x.render .json)
  | _ => none

def hexDigit (n : Nat) : Char := if n < 10 then Char.ofNat (48 + n) else Char.ofNat (87 + n)

def escapeChar (c : Char) : List Char :=
  match c with
  | '"' => ['\\', '"']
  | '\\' => ['\\', '\\']
  | '\x08' => ['\\', 'b']
  | '\x0c' => ['\\', 'f']
  | '\n' => ['\\', 'n']
  | '\r' => ['\\', 'r']
  | '\t' => ['\\', 't']
  | c =>
    if c.toNat < 0x20 then
      ['\\', 'u', '0', '0', hexDigit (c.toNat / 16), hexDigit (c.toNat % 16)]
    else [c]

def quoted (s : String) : String := "\"" ++ String.ofList (s.toList.flatMap escapeChar) ++ "\""

mutual

def render : Value → String
  | .null => "null"
  | .flag b => if b then "true" else "false"
  | .int n => toString n
  | .real x => x.render .json
  | .text s => quoted s
  | .list items => "[" ++ ",".intercalate (renderItems items) ++ "]"
  | .object fields => "\x7b" ++ ",".intercalate (renderFields fields) ++ "\x7d"

def renderItems : List Value → List String
  | [] => []
  | v :: rest => render v :: renderItems rest

def renderFields : List (String × Value) → List String
  | [] => []
  | (k, v) :: rest => (quoted k ++ ":" ++ render v) :: renderFields rest

end

end Value

end TreeStore.Json
