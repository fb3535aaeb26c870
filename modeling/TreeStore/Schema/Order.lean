import TreeStore.Model.Basic

/-! The order in which entity tables are created: the targets of relations before their sources, where
that is possible for all of them, and else the order of declaration. Relations of an entity to itself do
not count. -/

namespace TreeStore.Model

/-- Whether the table of `source` references that of another entity. -/
def refersTo (source target : Entity) : Bool :=
  source.name ≠ target.name && source.relations.any (·.target = target.name)

def referrers (m : Model) (target : Entity) : List Entity := m.entities.filter (refersTo · target)

/-- A depth-first walk: the entities seen, and those left again, the last one first. -/
structure Walk where
  seen : List Name := []
  left : List Entity := []

/-- Walks from an entity to those that reference it, directly or not, in at most `steps` steps. -/
def walk (m : Model) : Nat → Walk → Entity → Walk
  | 0, w, _ => w
  | steps + 1, w, e =>
    if w.seen.contains e.name then w
    else
      let w := (m.referrers e).foldl (m.walk steps) { w with seen := e.name :: w.seen }
      { w with left := e :: w.left }

/-- The entities, each before those that reference it if no cycle prevents that. -/
def walkOrder (m : Model) : List Entity :=
  (m.entities.foldl (m.walk (m.entities.length + 1)) {}).left

/-- Whether nothing in a list references what follows it. -/
def isTargetsFirst : List Entity → Bool
  | [] => true
  | e :: rest => rest.all (!refersTo e ·) && isTargetsFirst rest

def creationOrder (m : Model) : List Entity :=
  if isTargetsFirst m.walkOrder then m.walkOrder else m.entities

end TreeStore.Model
