import Mathlib.Data.List.Dedup
import Mathlib.Data.List.Nodup
import Mathlib.Logic.Relation
import TreeStore.Hierarchy
import TreeStore.Proofs.Outcome
import TreeStore.Proofs.TextMap

/-! Hierarchies: what is entered, that only the set of entries counts for the questions asked of them, and
that the ancestors of an entity are exactly the entities above it, however the entries go in circles. -/

namespace TreeStore.Hierarchy

theorem has_iff {h : Hierarchy} {parent child : String} :
    h.has parent child = true ↔ ∃ e ∈ h.entries, e.parent = parent ∧ e.child = child := by
  simp [has, HierarchyEntry.pair]

theorem entry_unique {h : Hierarchy} {e f : HierarchyEntry} (he : e ∈ h.entries) (hf : f ∈ h.entries)
    (same : e.pair = f.pair) : e = f :=
  List.inj_on_of_nodup_map h.distinct he hf same

theorem relation?_eq_some {h : Hierarchy} {parent child relation : String} :
    h.relation? parent child = some relation ↔ ⟨parent, child, relation⟩ ∈ h.entries := by
  simp only [relation?, Option.map_eq_some_iff]
  constructor
  · rintro ⟨e, found, rfl⟩
    have same := List.find?_some found
    simp only [decide_eq_true_eq] at same
    obtain ⟨rfl, rfl⟩ := same
    exact List.mem_of_find?_eq_some found
  · intro mem
    cases found : h.entries.find? fun e => e.parent = parent ∧ e.child = child with
    | none => simpa using List.find?_eq_none.1 found _ mem
    | some e =>
      have same := List.find?_some found
      simp only [decide_eq_true_eq] at same
      have eq := entry_unique (List.mem_of_find?_eq_some found) mem (Prod.ext same.1 same.2)
      exact ⟨e, rfl, by rw [eq]⟩

theorem relation?_isSome {h : Hierarchy} {parent child : String} :
    (h.relation? parent child).isSome = h.has parent child := by
  rw [Bool.eq_iff_iff, has_iff, Option.isSome_iff_exists]
  constructor
  · rintro ⟨r, found⟩
    exact ⟨_, relation?_eq_some.1 found, rfl, rfl⟩
  · rintro ⟨e, mem, rfl, rfl⟩
    exact ⟨e.relation, relation?_eq_some.2 mem⟩

theorem isLeaf_iff {h : Hierarchy} {entity : String} :
    h.isLeaf entity = true ↔ ∀ e ∈ h.entries, e.parent ≠ entity := by
  simp [isLeaf]

/-! ### Entering -/

theorem insert_entries_of_has {h : Hierarchy} {e : HierarchyEntry} (old : h.has e.parent e.child = true) :
    h.insert e = h := by
  simp [insert, old]

theorem insert_entries_of_new {h : Hierarchy} {e : HierarchyEntry} (new : h.has e.parent e.child = false) :
    (h.insert e).entries = h.entries ++ [e] := by
  simp [insert, new]

theorem has_insert (h : Hierarchy) (e : HierarchyEntry) (parent child : String) :
    (h.insert e).has parent child = true ↔ h.has parent child = true ∨ e.pair = (parent, child) := by
  cases old : h.has e.parent e.child with
  | true =>
    rw [insert_entries_of_has old]
    refine ⟨.inl, fun either => either.elim id fun same => ?_⟩
    obtain ⟨rfl, rfl⟩ := Prod.mk.inj same
    exact old
  | false =>
    simp only [has_iff, insert_entries_of_new old, List.mem_append, List.mem_singleton]
    constructor
    · rintro ⟨f, mem | rfl, rfl, rfl⟩
      · exact .inl ⟨f, mem, rfl, rfl⟩
      · exact .inr rfl
    · rintro (⟨f, mem, same⟩ | same)
      · exact ⟨f, .inl mem, same⟩
      · exact ⟨e, .inr rfl, (Prod.mk.inj same).1, (Prod.mk.inj same).2⟩

theorem mem_insert {h : Hierarchy} {e f : HierarchyEntry} (mem : f ∈ (h.insert e).entries) :
    f ∈ h.entries ∨ f = e := by
  cases old : h.has e.parent e.child with
  | true => rw [insert_entries_of_has old] at mem; exact .inl mem
  | false => simpa [insert_entries_of_new old] using mem

theorem has_foldl_insert (es : List HierarchyEntry) (h : Hierarchy) (parent child : String) :
    (es.foldl insert h).has parent child = true ↔
      h.has parent child = true ∨ ∃ e ∈ es, e.pair = (parent, child) := by
  induction es generalizing h with
  | nil => simp
  | cons e rest ih => simp only [List.foldl_cons, ih, has_insert, List.exists_mem_cons_iff, or_assoc]

theorem mem_foldl_insert (es : List HierarchyEntry) {h : Hierarchy} {f : HierarchyEntry}
    (mem : f ∈ (es.foldl insert h).entries) : f ∈ h.entries ∨ f ∈ es := by
  induction es generalizing h with
  | nil => exact .inl mem
  | cons e rest ih =>
    rcases ih mem with mem | mem
    · rcases mem_insert mem with mem | rfl
      · exact .inl mem
      · exact .inr List.mem_cons_self
    · exact .inr (List.mem_cons_of_mem _ mem)

theorem has_ofEntries {es : List HierarchyEntry} {parent child : String} :
    (ofEntries es).has parent child = true ↔ ∃ e ∈ es, e.pair = (parent, child) := by
  rw [ofEntries, has_foldl_insert]
  simp [has, empty]

theorem mem_ofEntries {es : List HierarchyEntry} {f : HierarchyEntry} (mem : f ∈ (ofEntries es).entries) :
    f ∈ es := by
  simpa [empty] using mem_foldl_insert es mem

theorem isLeaf_ofEntries {es : List HierarchyEntry} {entity : String} :
    (ofEntries es).isLeaf entity = true ↔ ∀ e ∈ es, e.parent ≠ entity := by
  rw [isLeaf_iff]
  constructor
  · intro leaf e mem same
    obtain ⟨f, found, parent, _⟩ := has_iff.1 (has_ofEntries.2 ⟨e, mem, rfl⟩)
    exact leaf f found (parent.trans same)
  · exact fun leaf e mem => leaf e (mem_ofEntries mem)

/-- Of the entries for a pair the first counts. -/
theorem relation?_insert (h : Hierarchy) (e : HierarchyEntry) (parent child : String) :
    (h.insert e).relation? parent child =
      (h.relation? parent child).or (if e.parent = parent ∧ e.child = child then some e.relation else none) := by
  cases old : h.has e.parent e.child with
  | true =>
    rw [insert_entries_of_has old]
    by_cases own : e.parent = parent ∧ e.child = child
    · obtain ⟨rfl, rfl⟩ := own
      obtain ⟨r, found⟩ := Option.isSome_iff_exists.1 (relation?_isSome.trans old)
      rw [found, Option.some_or]
    · rw [if_neg own, Option.or_none]
  | false =>
    rw [relation?, insert_entries_of_new old, List.find?_append, relation?, Option.map_or, List.find?_singleton]
    by_cases own : e.parent = parent ∧ e.child = child
    · rw [if_pos own, if_pos (decide_eq_true own), Option.map_some]
    · rw [if_neg own, if_neg (by simpa using own), Option.map_none]

theorem relation?_ofEntries (es : List HierarchyEntry) (parent child : String) :
    (ofEntries es).relation? parent child =
      (es.find? fun e => e.parent = parent ∧ e.child = child).map (·.relation) := by
  have fold : ∀ h : Hierarchy, (es.foldl insert h).relation? parent child =
      (h.relation? parent child).or ((es.find? fun e => e.parent = parent ∧ e.child = child).map (·.relation)) := by
    induction es with
    | nil => simp
    | cons e rest ih =>
      intro h
      rw [List.foldl_cons, ih, relation?_insert, Option.or_assoc, List.find?_cons]
      by_cases own : e.parent = parent ∧ e.child = child
      · simp [own]
      · simp [own]
  exact fold empty

/-- A relation stays, whatever is entered afterwards. -/
theorem relation?_foldl (es : List HierarchyEntry) {h : Hierarchy} {parent child relation : String}
    (known : h.relation? parent child = some relation) :
    (es.foldl insert h).relation? parent child = some relation := by
  induction es generalizing h with
  | nil => exact known
  | cons e rest ih => exact ih (by simp [relation?_insert, known])

theorem ofEntries_of_distinct {es : List HierarchyEntry} (distinct : (es.map HierarchyEntry.pair).Nodup) :
    (ofEntries es).entries = es := by
  have fold : ∀ h : Hierarchy, ((h.entries ++ es).map HierarchyEntry.pair).Nodup →
      (es.foldl insert h).entries = h.entries ++ es := by
    clear distinct
    induction es with
    | nil => simp
    | cons e rest ih =>
      intro h nodup
      have new : h.has e.parent e.child = false := by
        rw [Bool.eq_false_iff, ne_eq, has_iff]
        rintro ⟨f, mem, parent, child⟩
        rw [List.map_append, List.nodup_append] at nodup
        exact nodup.2.2 f.pair (List.mem_map_of_mem mem) e.pair (by simp) (Prod.ext parent child)
      have entered := insert_entries_of_new new
      rw [List.foldl_cons, ih (h.insert e) (by rw [entered]; simpa using nodup), entered]
      simp
  exact fold empty (by simpa [empty] using distinct)

/-- As many entries are new as the hierarchy has more in the end. -/
theorem count_steps_enter (es : List HierarchyEntry) (h : Hierarchy) :
    (steps enter es h).1.count true + h.entries.length = (es.foldl insert h).entries.length := by
  induction es generalizing h with
  | nil => simp [steps]
  | cons e rest ih =>
    have later := ih (h.insert e)
    cases old : h.has e.parent e.child with
    | true =>
      rw [insert_entries_of_has old] at later
      simpa [steps, enter, old, insert_entries_of_has old] using later
    | false =>
      rw [insert_entries_of_new old] at later
      simp only [steps, enter, old, Bool.not_false, List.count_cons_self, List.foldl_cons]
      simp only [List.length_append, List.length_singleton] at later
      omega

/-! ### Entering again -/

/-- Entries whose pairs are known change nothing. -/
theorem foldl_insert_known {es : List HierarchyEntry} {h : Hierarchy}
    (known : ∀ e ∈ es, h.has e.parent e.child = true) : es.foldl insert h = h := by
  induction es with
  | nil => rfl
  | cons e rest ih =>
    rw [List.foldl_cons, insert_entries_of_has (known e List.mem_cons_self)]
    exact ih fun f hf => known f (List.mem_cons_of_mem _ hf)

theorem steps_enter_known {es : List HierarchyEntry} {h : Hierarchy}
    (known : ∀ e ∈ es, h.has e.parent e.child = true) : (steps enter es h).1 = es.map fun _ => false := by
  induction es with
  | nil => rfl
  | cons e rest ih =>
    have old := known e List.mem_cons_self
    have later := ih fun f hf => known f (List.mem_cons_of_mem _ hf)
    simp [steps, enter, old, insert_entries_of_has old, later]

/-- Entering all entries takes up what entering the first of them has left. -/
theorem foldl_insert_take (es : List HierarchyEntry) (n : Nat) :
    es.foldl insert (ofEntries (es.take n)) = ofEntries es := by
  have first : (es.take n).foldl insert (ofEntries (es.take n)) = ofEntries (es.take n) :=
    foldl_insert_known fun e he => has_ofEntries.2 ⟨e, he, rfl⟩
  have whole (h : Hierarchy) : es.foldl insert h = (es.drop n).foldl insert ((es.take n).foldl insert h) := by
    rw [← List.foldl_append, List.take_append_drop]
  rw [whole, first, ofEntries, ofEntries, whole]

theorem length_ofEntries (es : List HierarchyEntry) :
    (ofEntries es).entries.length = (es.map HierarchyEntry.pair).dedup.length := by
  have members : ∀ p, p ∈ (ofEntries es).entries.map HierarchyEntry.pair ↔ p ∈ (es.map HierarchyEntry.pair).dedup := by
    intro p
    have listed : (ofEntries es).has p.1 p.2 = true ↔ p ∈ (ofEntries es).entries.map HierarchyEntry.pair := by
      simp [has]
    rw [← listed, has_ofEntries, List.mem_dedup, List.mem_map]
  have perm := (List.perm_ext_iff_of_nodup (ofEntries es).distinct (List.nodup_dedup _)).2 members
  simpa using perm.length_eq

/-! ### The order of entries -/

section Permuted

variable {h g : Hierarchy} (same : h.entries.Perm g.entries)
include same

theorem has_perm (parent child : String) : h.has parent child = g.has parent child := by
  rw [Bool.eq_iff_iff, has_iff, has_iff]
  simp only [same.mem_iff]

theorem relation?_perm (parent child : String) : h.relation? parent child = g.relation? parent child := by
  apply Option.ext
  intro r
  rw [relation?_eq_some, relation?_eq_some, same.mem_iff]

theorem isLeaf_perm (entity : String) : h.isLeaf entity = g.isLeaf entity := by
  rw [Bool.eq_iff_iff, isLeaf_iff, isLeaf_iff]
  simp only [same.mem_iff]

theorem childrenOf_perm (parent : String) : h.childrenOf parent = g.childrenOf parent := by
  rw [childrenOf, childrenOf]
  apply sortedDistinct_congr
  intro x
  simp only [List.mem_map, List.mem_filter, same.mem_iff]

end Permuted

/-! ### Ancestors -/

/-- One entity is above another: steps down lead from it to the other. -/
def Above (h : Hierarchy) : String → String → Prop := Relation.TransGen fun p c => h.has p c = true

namespace Search

def Reached (start : String) (s : Search) (x : String) : Prop := x = start ∨ x ∈ s.found

/-- What holds of a search in which some entries are still to be looked at in this round. The start is never found, though
it may be above itself; a parent that is not reached has a child in the frontier, or in one of those entries. -/
structure Invariant (h : Hierarchy) (start : String) (pending : List HierarchyEntry) (s : Search) : Prop where
  above : ∀ x ∈ s.found, x ≠ start ∧ h.Above x start
  frontier : ∀ x ∈ s.frontier, s.Reached start x
  below : ∀ e ∈ pending, e ∈ h.entries ∧ s.Reached start e.child
  looked : ∀ e ∈ h.entries, s.Reached start e.child →
    e.child ∈ s.frontier ∨ e ∈ pending ∨ s.Reached start e.parent

variable {h : Hierarchy} {start current : String} {s : Search} {e : HierarchyEntry} {pending : List HierarchyEntry}

theorem Invariant.begin (h : Hierarchy) (start : String) : Invariant h start [] ⟨[], [start]⟩ where
  above _ mem := absurd mem List.not_mem_nil
  frontier _ mem := .inl (List.mem_singleton.1 mem)
  below _ mem := absurd mem List.not_mem_nil
  looked _ _ below := .inl (List.mem_singleton.2 (below.resolve_right List.not_mem_nil))

/-- A round begins with the entries below the entity that is taken from the frontier. -/
theorem Invariant.pop {found frontier : List String} (inv : Invariant h start [] ⟨found, current :: frontier⟩) :
    Invariant h start (h.entriesBelow current) ⟨found, frontier⟩ where
  above := inv.above
  frontier x mem := inv.frontier x (List.mem_cons_of_mem _ mem)
  below e mem := by
    obtain ⟨listed, below⟩ := List.mem_filter.1 mem
    exact ⟨listed, of_decide_eq_true below ▸ inv.frontier current List.mem_cons_self⟩
  looked e listed below := by
    rcases inv.looked e listed below with left | none | known
    · rcases List.mem_cons.1 left with own | other
      · exact .inr (.inl (List.mem_filter.2 ⟨listed, decide_eq_true own⟩))
      · exact .inl other
    · cases none
    · exact .inr (.inr known)

theorem Reached.look {x : String} (known : s.Reached start x) (e : HierarchyEntry) :
    (s.look start e).Reached start x := by
  unfold Search.look
  split
  · exact known.imp_right (List.mem_cons_of_mem _)
  · exact known

theorem reached_look (start : String) (s : Search) (e : HierarchyEntry) : (s.look start e).Reached start e.parent := by
  unfold Search.look
  split
  · exact .inr List.mem_cons_self
  · next old =>
    by_cases own : e.parent = start
    · exact .inl own
    · exact .inr (by_contra fun new => old ⟨own, new⟩)

theorem Invariant.look (inv : Invariant h start (e :: pending) s) : Invariant h start pending (s.look start e) := by
  obtain ⟨listed, below⟩ := inv.below e List.mem_cons_self
  have edge : h.has e.parent e.child = true := has_iff.2 ⟨e, listed, rfl, rfl⟩
  have higher : h.Above e.parent start := by
    rcases below with own | found
    · exact own ▸ .single edge
    · exact .head edge (inv.above _ found).2
  have later : ∀ f ∈ pending, f ∈ h.entries ∧ (s.look start e).Reached start f.child := fun f mem =>
    (inv.below f (List.mem_cons_of_mem _ mem)).imp_right (·.look e)
  have kept : ∀ f ∈ h.entries, s.Reached start f.child →
      f.child ∈ s.frontier ∨ f ∈ pending ∨ (s.look start e).Reached start f.parent := by
    intro f hf reached
    rcases inv.looked f hf reached with left | mem | known
    · exact .inl left
    · rcases List.mem_cons.1 mem with rfl | mem
      · exact .inr (.inr (reached_look start s f))
      · exact .inr (.inl mem)
    · exact .inr (.inr (known.look e))
  by_cases new : e.parent ≠ start ∧ e.parent ∉ s.found
  · have eq : s.look start e = ⟨e.parent :: s.found, e.parent :: s.frontier⟩ := if_pos new
    rw [eq] at later kept ⊢
    refine ⟨?_, ?_, later, ?_⟩
    · exact List.forall_mem_cons.2 ⟨⟨new.1, higher⟩, inv.above⟩
    · exact List.forall_mem_cons.2 ⟨.inr List.mem_cons_self, fun x mem =>
        (inv.frontier x mem).imp_right (List.mem_cons_of_mem _)⟩
    · intro f hf reached
      rcases reached with own | found
      · exact (kept f hf (.inl own)).imp_left (List.mem_cons_of_mem _)
      · rcases List.mem_cons.1 found with same | found
        · exact .inl (same ▸ List.mem_cons_self)
        · exact (kept f hf (.inr found)).imp_left (List.mem_cons_of_mem _)
  · have eq : s.look start e = s := if_neg new
    rw [eq] at later kept ⊢
    exact ⟨inv.above, inv.frontier, later, kept⟩

theorem Invariant.foldl (inv : Invariant h start pending s) :
    Invariant h start [] (pending.foldl (Search.look start) s) := by
  induction pending generalizing s with
  | nil => exact inv
  | cons e rest ih => exact ih inv.look

/-- A search with an empty frontier has reached what is above the start. -/
theorem Invariant.complete {found : List String} (inv : Invariant h start [] ⟨found, []⟩) {x : String}
    (above : h.Above x start) : Reached start ⟨found, []⟩ x := by
  have up : ∀ e ∈ h.entries, Reached start ⟨found, []⟩ e.child → Reached start ⟨found, []⟩ e.parent := by
    intro e listed below
    rcases inv.looked e listed below with left | none | known
    · cases left
    · cases none
    · exact known
  induction above using Relation.TransGen.head_induction_on with
  | single edge =>
    obtain ⟨e, he, rfl, own⟩ := has_iff.1 edge
    exact up e he (.inl own)
  | head edge _ ih =>
    obtain ⟨e, he, rfl, rfl⟩ := has_iff.1 edge
    exact up e he ih

end Search

variable {h : Hierarchy}

/-- A search that has come as far as its invariant says finds just the other entities above its start. -/
theorem mem_search {start x : String} {s : Search} (inv : s.Invariant h start []) :
    x ∈ h.search start s ↔ x ≠ start ∧ h.Above x start := by
  fun_induction search h start s with
  | case1 found =>
    constructor
    · exact inv.above x
    · rintro ⟨other, above⟩
      exact (inv.complete above).resolve_left other
  | case2 found current frontier ih => exact ih inv.pop.foldl

theorem mem_ancestorsOf {x entity : String} :
    x ∈ h.ancestorsOf entity ↔ x ≠ entity ∧ h.Above x entity := by
  rw [ancestorsOf, mem_sortedDistinct, mem_search (.begin h entity)]

theorem ancestorsOf_sorted (h : Hierarchy) (entity : String) : (h.ancestorsOf entity).Pairwise (· < ·) :=
  sortedDistinct_sorted _

/-! ### Hierarchies that answer alike -/

/-- Two hierarchies answer all questions alike, up to the order in which relations are listed. -/
structure Agrees (g h : Hierarchy) : Prop where
  relation? : ∀ parent child, g.relation? parent child = h.relation? parent child
  childrenOf : ∀ parent, g.childrenOf parent = h.childrenOf parent
  isLeaf : ∀ entity, g.isLeaf entity = h.isLeaf entity
  ancestorsOf : ∀ entity, g.ancestorsOf entity = h.ancestorsOf entity
  length : g.entries.length = h.entries.length
  relationsOf : ∀ parent, (g.relationsOf parent).Perm (h.relationsOf parent)

section Permuted

variable {h g : Hierarchy} (same : h.entries.Perm g.entries)
include same

theorem above_perm (x y : String) : h.Above x y ↔ g.Above x y := by
  have edges : (fun p c => h.has p c = true) = fun p c => g.has p c = true := by
    funext p c
    rw [has_perm same]
  rw [Above, Above, edges]

theorem ancestorsOf_perm (entity : String) : h.ancestorsOf entity = g.ancestorsOf entity := by
  have members : ∀ x, x ∈ h.ancestorsOf entity ↔ x ∈ g.ancestorsOf entity := fun x => by
    rw [mem_ancestorsOf, mem_ancestorsOf, above_perm same]
  unfold ancestorsOf at members ⊢
  apply sortedDistinct_congr
  simpa only [mem_sortedDistinct] using members

theorem agrees_of_perm : h.Agrees g where
  relation? := relation?_perm same
  childrenOf := childrenOf_perm same
  isLeaf := isLeaf_perm same
  ancestorsOf := ancestorsOf_perm same
  length := same.length_eq
  relationsOf := fun _ => same.filter _

end Permuted

end TreeStore.Hierarchy
