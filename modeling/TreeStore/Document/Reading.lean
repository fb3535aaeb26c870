import TreeStore.Document.Node

/-! A document as read from its text: its content, and whether the text was sound to its end. -/

namespace TreeStore

structure Reading where
  root : Node
  sound : Bool

/-- Takes a value from the content; what is wrong with the content counts before what follows it. -/
def Reading.decode (r : Reading) (read : Node → Except Fault α) : Except Fault α := do
  let x ← read r.root
  if r.sound then return x else throw .malformed

end TreeStore
