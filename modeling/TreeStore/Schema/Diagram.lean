import TreeStore.Schema.Basic

/-! A schema as a graph, and the graph as text: tables are nodes, and foreign keys are edges that bear the
names of their columns. -/

namespace TreeStore.Schema

structure Edge where
  source : String
  target : String
  column : String
deriving DecidableEq, Repr

/-- An edge between numbered nodes. -/
structure Link (nodes : Nat) where
  source : Fin nodes
  target : Fin nodes
  column : String
deriving DecidableEq, Repr

/-- Nodes bear the names of tables and are numbered in their order. -/
structure Graph where
  nodes : List String
  links : List (Link nodes.length)
deriving DecidableEq, Repr

namespace Graph

/-- The numbers of nodes by name. A name that several nodes bear stands for the last of them. -/
def numbers (nodes : List String) : TextMap (Fin nodes.length) :=
  .ofList ((List.finRange nodes.length).map fun i => (nodes.get i, i))

/-- A link, with the names of the nodes at its ends. -/
def edge (g : Graph) (l : Link g.nodes.length) : Edge := ⟨g.nodes.get l.source, g.nodes.get l.target, l.column⟩

def edges (g : Graph) : List Edge := g.links.map g.edge

end Graph

/-- The foreign keys of a table, without those to a name that no node bears. -/
def linksFrom {nodes : Nat} (numbers : TextMap (Fin nodes)) (t : Table) : List (Link nodes) :=
  t.foreignKeys.filterMap fun k => do
    let source ← numbers.get? t.name
    let target ← numbers.get? k.2
    return ⟨source, target, k.1⟩

def graph (s : Schema) : Graph :=
  let nodes := s.tables.map (·.name)
  ⟨nodes, s.tables.flatMap (linksFrom (Graph.numbers nodes))⟩

def edges (s : Schema) : List Edge := s.graph.edges

def nodeStyle : TableKind → String
  | .entity => ""
  | .registry => ", style=dashed"
  | .junction | .relationships => ", style=rounded"

def columnRow (c : Column) : String := c.name ++ " " ++ c.type

/-- A record of the table's name and its columns, each on a line that its end puts to the left. -/
def nodeLabel (t : Table) : String :=
  "\x7b" ++ t.name ++ "|" ++ "\\l".intercalate (t.columns.map columnRow) ++ "\\l\x7d"

def nodeLine (t : Table) : String :=
  "  \"" ++ t.name ++ "\" [label=\"" ++ nodeLabel t ++ "\"" ++ nodeStyle t.kind ++ "];"

def edgeLine (e : Edge) : String :=
  "  \"" ++ e.source ++ "\" -> \"" ++ e.target ++ "\" [label=\"" ++ e.column ++ "\"];"

def preamble : List String := ["digraph schema \x7b", "  rankdir=LR;", "  node [shape=record];", ""]

def dotLines (s : Schema) : List String :=
  preamble ++ s.tables.map nodeLine ++ [""] ++ s.edges.map edgeLine ++ ["\x7d"]

def dot (s : Schema) : String := String.join (s.dotLines.map (· ++ "\n"))

end TreeStore.Schema
