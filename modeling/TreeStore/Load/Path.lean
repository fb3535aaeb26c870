/-! Places in a tree, for reports: the type of the root, and of every node below it the type and its number
among its siblings. -/

namespace TreeStore

structure NodePath where
  root : String
  steps : List (String × Nat) := []
deriving DecidableEq, Repr

namespace NodePath

def child (p : NodePath) (type : String) (index : Nat) : NodePath :=
  { p with steps := p.steps ++ [(type, index)] }

/-- How many nodes lie on the way, the root included. -/
def depth (p : NodePath) : Nat := p.steps.length + 1

def stepText (step : String × Nat) : String := step.1 ++ "[" ++ toString step.2 ++ "]"

def text (p : NodePath) : String := " > ".intercalate (p.root :: p.steps.map stepText)

end NodePath

end TreeStore
