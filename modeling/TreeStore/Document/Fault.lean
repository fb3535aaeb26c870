import TreeStore.Name

/-! What can be wrong with a YAML or JSON document, seen from the values it should hold. -/

namespace TreeStore

inductive Fault where
  | missingField (field : String)
  | unknownField (field : String) (known : List String)
  | duplicateField (field : String)
  | blankName (kind : NameKind)
  /-- An attribute value that is neither truth value, number nor text. -/
  | notScalar
  | invalidType
  | invalidValue
  | invalidLength
  /-- The text itself is at fault: its syntax, its nesting, a number out of range, what follows it. -/
  | malformed
deriving DecidableEq, Repr

namespace Fault

def ticked (s : String) : String := s!"`{s}`"

def choices : List String → String
  | [] => "there are no fields"
  | [a] => s!"expected {ticked a}"
  | [a, b] => s!"expected {ticked a} or {ticked b}"
  | xs => "expected one of " ++ ", ".intercalate (xs.map ticked)

def message : Fault → String
  | .missingField field => s!"missing field {ticked field}"
  | .unknownField field known => s!"unknown field {ticked field}, {choices known}"
  | .duplicateField field => s!"duplicate field {ticked field}"
  | .blankName kind => s!"{kind.word} name must not be blank"
  | .notScalar => "data did not match any variant of untagged enum ScalarValue"
  | .invalidType => "invalid type"
  | .invalidValue => "invalid value"
  | .invalidLength => "invalid length"
  | .malformed => "malformed document"

end Fault

end TreeStore
