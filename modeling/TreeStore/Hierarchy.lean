import TreeStore.Text.Map

/-! The hierarchy: which entity may be the child of which, and by which relation. A pair of parent and
child has one relation, the first that was entered for it. -/

namespace TreeStore

structure HierarchyEntry where
  parent : String
  child : String
  relation : String
deriving DecidableEq, Repr

namespace HierarchyEntry

def pair (e : HierarchyEntry) : String × String := (e.parent, e.child)

def text (e : HierarchyEntry) : String := s!"{e.parent} -> {e.child} ({e.relation})"

end HierarchyEntry

/-- Entries in the order in which they were entered. -/
structure Hierarchy where
  entries : List HierarchyEntry
  distinct : (entries.map HierarchyEntry.pair).Nodup
deriving DecidableEq

namespace Hierarchy

def empty : Hierarchy := ⟨[], .nil⟩

instance : Inhabited Hierarchy := ⟨empty⟩

def has (h : Hierarchy) (parent child : String) : Bool :=
  (h.entries.map HierarchyEntry.pair).contains (parent, child)

def insert (h : Hierarchy) (e : HierarchyEntry) : Hierarchy :=
  if new : h.has e.parent e.child then h
  else ⟨h.entries ++ [e], by
    have : e.pair ∉ h.entries.map HierarchyEntry.pair := fun mem => new (List.contains_iff_mem.2 mem)
    simpa [List.nodup_append, h.distinct] using fun x hx same => this (List.mem_map.2 ⟨x, hx, same⟩)⟩

/-- Enters an entry, and tells whether its pair is new. -/
def enter (e : HierarchyEntry) (h : Hierarchy) : Bool × Hierarchy := (!h.has e.parent e.child, h.insert e)

def ofEntries (es : List HierarchyEntry) : Hierarchy := es.foldl insert empty

/-- The relation by which `child` may be below `parent`. -/
def relation? (h : Hierarchy) (parent child : String) : Option String :=
  (h.entries.find? fun e => e.parent = parent ∧ e.child = child).map (·.relation)

def childrenOf (h : Hierarchy) (parent : String) : List String :=
  sortedDistinct ((h.entries.filter (·.parent = parent)).map (·.child))

def isLeaf (h : Hierarchy) (entity : String) : Bool := h.entries.all (·.parent ≠ entity)

def relationsOf (h : Hierarchy) (parent : String) : List HierarchyEntry :=
  h.entries.filter (·.parent = parent)

/-- A search for what is above an entity: what it has found, and what it has still to look above, the last first. -/
structure Search where
  found : List String
  frontier : List String
deriving DecidableEq, Repr

/-- Takes up the parent of an entry, unless the search began there or has found it already. -/
def Search.look (start : String) (s : Search) (e : HierarchyEntry) : Search :=
  if e.parent ≠ start ∧ e.parent ∉ s.found then ⟨e.parent :: s.found, e.parent :: s.frontier⟩ else s

def entriesBelow (h : Hierarchy) (child : String) : List HierarchyEntry := h.entries.filter (·.child = child)

/-- How many entries have a parent that is not found, and entities are still to be looked above. -/
def Search.work (h : Hierarchy) (s : Search) : Nat :=
  (h.entries.countP fun e => e.parent ∉ s.found) + s.frontier.length

theorem Search.work_look {h : Hierarchy} {e : HierarchyEntry} (mem : e ∈ h.entries) (start : String) (s : Search) :
    (s.look start e).work h ≤ s.work h := by
  unfold look
  split
  · next new =>
    -- The entry itself has a parent to be found no longer, which makes up for the frontier.
    obtain ⟨before, after, eq⟩ := List.append_of_mem mem
    have fewer (es : List HierarchyEntry) : (es.countP fun f => f.parent ∉ e.parent :: s.found) ≤
        es.countP fun f => f.parent ∉ s.found :=
      List.countP_mono_left fun f _ => by simp
    have less := fewer before
    have less' := fewer after
    simp only [work, eq, List.countP_append, List.countP_cons, new.2, List.mem_cons_self, List.length_cons,
      not_true_eq_false, not_false_eq_true, decide_true, decide_false, if_true]
    simp only [Bool.false_eq_true, if_false]
    omega
  · exact Nat.le_refl _

theorem Search.work_foldl {h : Hierarchy} {es : List HierarchyEntry} (sub : ∀ e ∈ es, e ∈ h.entries) (start : String)
    (s : Search) : (es.foldl (look start) s).work h ≤ s.work h := by
  induction es generalizing s with
  | nil => exact Nat.le_refl _
  | cons e rest ih =>
    have first := work_look (sub e List.mem_cons_self) start s
    have others := ih (fun f mem => sub f (List.mem_cons_of_mem _ mem)) (s.look start e)
    exact Nat.le_trans others first

/-- Looks above the last entity of the frontier until none is left. -/
def search (h : Hierarchy) (start : String) : Search → List String
  | ⟨found, []⟩ => found
  | ⟨found, current :: frontier⟩ =>
    h.search start ((h.entriesBelow current).foldl (Search.look start) ⟨found, frontier⟩)
termination_by s => s.work h
decreasing_by
  have sub : ∀ e ∈ h.entriesBelow current, e ∈ h.entries := fun e mem => (List.mem_filter.1 mem).1
  have fewer := Search.work_foldl sub start ⟨found, frontier⟩
  simp only [Search.work, List.length_cons] at fewer ⊢
  omega

/-- The other entities from which steps down lead to an entity, in order. -/
def ancestorsOf (h : Hierarchy) (entity : String) : List String :=
  sortedDistinct (h.search entity ⟨[], [entity]⟩)

end Hierarchy

end TreeStore
