import TreeStore.Text.Map

/-! Instance trees. A node's type names an entity, its attributes are texts, and nested structure is
children. A node without attributes only holds its children together: a container. -/

namespace TreeStore

structure Tree where
  type : String
  attributes : TextMap String
  children : List Tree

namespace Tree

instance : Inhabited Tree := ⟨⟨"", .empty, []⟩⟩

def isContainer (t : Tree) : Bool := t.attributes.isEmpty

mutual

def nodeCount : Tree → Nat
  | ⟨_, _, children⟩ => 1 + nodeCounts children

def nodeCounts : List Tree → Nat
  | [] => 0
  | t :: rest => nodeCount t + nodeCounts rest

end

mutual

/-- The nodes on the longest way down, the root included. -/
def depth : Tree → Nat
  | ⟨_, _, children⟩ => 1 + depths children

def depths : List Tree → Nat
  | [] => 0
  | t :: rest => max (depth t) (depths rest)

end

mutual

def same : Tree → Tree → Bool
  | ⟨t, as, cs⟩, ⟨u, bs, ds⟩ => t = u && as = bs && sameAll cs ds

def sameAll : List Tree → List Tree → Bool
  | [], [] => true
  | c :: cs, d :: ds => same c d && sameAll cs ds
  | _, _ => false

end

end Tree

end TreeStore
