import TreeStore.Load.Error
import TreeStore.Tree.Basic
import TreeStore.Text.Case

/-! Checking a tree against the hierarchy, before anything is written. The first violation from the top
down is reported. -/

namespace TreeStore.Tree

/-- The first attribute that differs from an earlier one in case only, after that one. -/
def sameKeys? (before : List String) : List String → Option (String × String)
  | [] => none
  | key :: rest =>
    match before.find? fun k => Text.lower k = Text.lower key with
    | some first => some (first, key)
    | none => sameKeys? (before ++ [key]) rest

def ownViolation? (maxDepth : Nat) (path : NodePath) (type : String) (keys : List String) :
    Option Violation :=
  if maxDepth < path.depth then some (.tooDeep maxDepth)
  else if !Ident.isValid type then some (.badType type)
  else match keys.find? (!Ident.isValid ·) with
    | some bad => some (.badAttribute bad)
    | none => (sameKeys? [] keys).map fun (first, second) => .sameAttribute first second

mutual

def checkAt (h : Hierarchy) (maxDepth : Nat) (path : NodePath) :
    Tree → Except (NodePath × Violation) Unit
  | ⟨type, attributes, children⟩ =>
    match ownViolation? maxDepth path type attributes.keys with
    | some v => .error (path, v)
    | none => checkChildren h maxDepth path type 0 children

/-- Checks children, the first of which has a number. -/
def checkChildren (h : Hierarchy) (maxDepth : Nat) (path : NodePath) (parent : String) (index : Nat) :
    List Tree → Except (NodePath × Violation) Unit
  | [] => .ok ()
  | c :: rest =>
    let place := path.child c.type index
    if !h.has parent c.type then
      .error (place, .notChild c.type parent (h.childrenOf parent))
    else do
      checkAt h maxDepth place c
      checkChildren h maxDepth path parent (index + 1) rest

end

def check (h : Hierarchy) (maxDepth : Nat) (t : Tree) : Except (NodePath × Violation) Unit :=
  checkAt h maxDepth ⟨t.type, []⟩ t

end TreeStore.Tree
