import TreeStore.Text.Case

/-! Kinds of scalar attributes. Reading a kind never fails: a word that is not known means text. -/

namespace TreeStore

inductive ScalarKind where
  | text
  | integer
  | real
  | boolean
  | date
deriving DecidableEq, Repr

namespace ScalarKind

def ofWord? : String → Option ScalarKind
  | "string" | "text" | "varchar" => some .text
  | "int" | "integer" | "long" => some .integer
  | "float" | "double" | "real" | "decimal" => some .real
  | "bool" | "boolean" => some .boolean
  | "date" => some .date
  | _ => none

/-- Reads a declared kind; blanks around it and the case of ASCII letters do not matter. -/
def parse (kind : String) : ScalarKind :=
  (ofWord? (Text.asciiLower (Text.trim kind))).getD .text

def word : ScalarKind → String
  | .text => "text"
  | .integer => "integer"
  | .real => "real"
  | .boolean => "boolean"
  | .date => "date"

/-- The type of the columns that hold values of this kind. -/
def columnType : ScalarKind → String
  | .text => "VARCHAR"
  | .integer => "BIGINT"
  | .real => "DOUBLE"
  | .boolean => "BOOLEAN"
  | .date => "DATE"

end ScalarKind

end TreeStore
