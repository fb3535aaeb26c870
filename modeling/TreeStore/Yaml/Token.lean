import TreeStore.Yaml.Cursor

/-! Tokens of a YAML text. Indentation shows as the starts and ends of blocks. -/

namespace TreeStore.Yaml

/-- How a scalar is written. -/
inductive ScalarStyle where
  | plain
  | singleQuoted
  | doubleQuoted
  | literal
  | folded
deriving DecidableEq, Repr

inductive Token where
  | streamEnd
  | version (major minor : Nat)
  /-- A handle for tags and the text it stands for. -/
  | handle (name text : String)
  | documentStart
  | documentEnd
  | blockListStart
  | blockDictStart
  | blockEnd
  | flowListStart
  | flowListEnd
  | flowDictStart
  | flowDictEnd
  | item
  | comma
  | key
  | value
  | alias (name : String)
  | anchor (name : String)
  | tag (handle suffix : String)
  | scalar (style : ScalarStyle) (text : String)
deriving DecidableEq, Repr

end TreeStore.Yaml
