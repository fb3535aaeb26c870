import TreeStore.Proofs.Load.Recording

/-! The nodes of a tree with what is above each of them, in the order in which they are loaded, and the ids that
a database has for the nodes on a way up. -/

namespace TreeStore

open Database Loader

structure Label where
  type : String
  attributes : TextMap String

/-- Whether a node has attributes; otherwise it only holds its children together. -/
def Label.bears (l : Label) : Bool := !l.attributes.isEmpty

/-- The nearest node of a type with attributes, on a way up. -/
def nearest? (type : String) (line : List Label) : Option Label := line.find? fun l => l.bears && l.type = type

/-- A node of a tree, its place, and the nodes above it, the nearest first. -/
structure Trail where
  path : NodePath
  node : Label
  above : List Label

/-- The way up from a node, which begins with the node itself. -/
def Trail.line (t : Trail) : List Label := t.node :: t.above

namespace Tree

def label (t : Tree) : Label := ⟨t.type, t.attributes⟩

mutual

def trailsAt (path : NodePath) (above : List Label) : Tree → List Trail
  | ⟨type, attributes, children⟩ =>
    ⟨path, ⟨type, attributes⟩, above⟩ :: trailsBelow path (⟨type, attributes⟩ :: above) 0 children

def trailsBelow (path : NodePath) (above : List Label) (index : Nat) : List Tree → List Trail
  | [] => []
  | c :: rest => trailsAt (path.child c.type index) above c ++ trailsBelow path above (index + 1) rest

end

def trails (t : Tree) : List Trail := t.trailsAt ⟨t.type, []⟩ []

mutual

theorem length_trailsAt (path : NodePath) (above : List Label) : (t : Tree) →
    (t.trailsAt path above).length = t.nodeCount
  | ⟨type, attributes, children⟩ => by
    rw [trailsAt, List.length_cons, length_trailsBelow, nodeCount, Nat.add_comm]

theorem length_trailsBelow (path : NodePath) (above : List Label) (index : Nat) : (ts : List Tree) →
    (trailsBelow path above index ts).length = nodeCounts ts
  | [] => rfl
  | c :: rest => by
    rw [trailsBelow, List.length_append, length_trailsAt, length_trailsBelow, nodeCounts]

end

theorem length_trails (t : Tree) : t.trails.length = t.nodeCount := length_trailsAt _ _ t

end Tree

/-! ### Lawful ways -/

/-- A way up in a model: every node is of an entity, to which a relation leads from the entity of the next. -/
structure Lawful (m : Model) (line : List Label) : Prop where
  entities : ∀ l ∈ line, ∃ e ∈ m.entities, e.name.text = l.type
  linked : line.IsChain fun l p => m.hierarchy.has p.type l.type = true

namespace Lawful

variable {m : Model} {l : Label} {line : List Label}

theorem tail (lawful : Lawful m (l :: line)) : Lawful m line :=
  ⟨fun k hk => lawful.entities k (List.mem_cons_of_mem _ hk), lawful.linked.of_cons⟩

theorem single (entity : ∃ e ∈ m.entities, e.name.text = l.type) : Lawful m [l] := by
  refine ⟨fun k hk => ?_, .singleton l⟩
  rw [List.mem_singleton.1 hk]
  exact entity

theorem down (compiles : m.Compiles) (lawful : Lawful m (l :: line)) {child : Label}
    (linked : m.hierarchy.has l.type child.type = true) : Lawful m (child :: l :: line) := by
  refine ⟨fun k hk => ?_, .cons_cons linked lawful.linked⟩
  rcases List.mem_cons.1 hk with rfl | hk
  · obtain ⟨entry, mem, pair⟩ := Hierarchy.has_ofEntries.1 linked
    obtain ⟨e, he, r, hr, rfl⟩ := Model.mem_hierarchyEntries.1 mem
    obtain ⟨f, hf, target⟩ := compiles.target_mem he hr
    have type : r.target.text = k.type := congrArg Prod.snd pair
    exact ⟨f, hf, by rw [target, type]⟩
  · exact lawful.entities k hk

theorem relation {p : Label} (lawful : Lawful m (l :: p :: line)) : ∃ e ∈ m.entities, ∃ r ∈ e.relations,
    e.name.text = p.type ∧ r.target.text = l.type ∧
      m.hierarchy.relation? e.name.text r.target.text = some r.name.text := by
  have linked : m.hierarchy.has p.type l.type = true := (List.isChain_cons_cons.1 lawful.linked).1
  obtain ⟨name, found⟩ := Option.isSome_iff_exists.1 (Hierarchy.relation?_isSome.trans linked)
  have entered := Hierarchy.mem_ofEntries (Hierarchy.relation?_eq_some.1 found)
  obtain ⟨e, he, r, hr, eq⟩ := Model.mem_hierarchyEntries.1 entered
  obtain ⟨parent, child, rfl⟩ : p.type = e.name.text ∧ l.type = r.target.text ∧ name = r.name.text := by
    simpa using eq
  exact ⟨e, he, r, hr, parent.symm, child.symm, by rw [← parent, ← child]; exact found⟩

theorem above (lawful : Lawful m (l :: line)) {k : Label} (mem : k ∈ line) : m.hierarchy.Above k.type l.type := by
  induction line generalizing l with
  | nil => cases mem
  | cons p rest ih =>
    have first : m.hierarchy.has p.type l.type = true := (List.isChain_cons_cons.1 lawful.linked).1
    rcases List.mem_cons.1 mem with rfl | mem
    · exact .single first
    · exact .tail (ih lawful.tail mem) first

end Lawful

namespace Tree

variable {m : Model} {maxDepth : Nat}

mutual

/-- The ways up from the nodes of a tree that has been checked are lawful. -/
theorem trailsAt_lawful (compiles : m.Compiles) {path : NodePath} {above : List Label} : (t : Tree) →
    (checked : t.checkAt m.hierarchy maxDepth path = .ok ()) → (lawful : Lawful m (t.label :: above)) →
    ∀ x ∈ t.trailsAt path above, Lawful m x.line
  | ⟨type, attributes, children⟩, checked, lawful, x, mem => by
    rw [checkAt] at checked
    rcases List.mem_cons.1 mem with rfl | mem
    · exact lawful
    · cases own : ownViolation? maxDepth path type attributes.keys with
      | some v => rw [own] at checked; cases checked
      | none => rw [own] at checked; exact trailsBelow_lawful compiles children checked lawful x mem

theorem trailsBelow_lawful (compiles : m.Compiles) {path : NodePath} {parent : Label} {above : List Label}
    {index : Nat} : (ts : List Tree) →
    (checked : checkChildren m.hierarchy maxDepth path parent.type index ts = .ok ()) →
    (lawful : Lawful m (parent :: above)) →
    ∀ x ∈ trailsBelow path (parent :: above) index ts, Lawful m x.line
  | [], _, _, _, mem => nomatch mem
  | c :: rest, checked, lawful, x, mem => by
    rw [checkChildren] at checked
    cases linked : m.hierarchy.has parent.type c.type with
    | false => simp [linked] at checked
    | true =>
      simp only [linked, Bool.not_true, Bool.false_eq_true, if_false, seq_eq_ok] at checked
      rcases List.mem_append.1 mem with mem | mem
      · exact trailsAt_lawful compiles c checked.1 (lawful.down compiles linked) x mem
      · exact trailsBelow_lawful compiles rest checked.2 lawful x mem

end

theorem trails_lawful (compiles : m.Compiles) {t : Tree} (root : ∃ e ∈ m.entities, e.name.text = t.type)
    (checked : t.check m.hierarchy maxDepth = .ok ()) : ∀ x ∈ t.trails, Lawful m x.line :=
  trailsAt_lawful compiles t checked (.single root)

end Tree

/-! ### Ids on a way up -/

variable {V : Type} (vs : ValueSystem V)

namespace Database

def idAt (db : Database V) (l : Label) : Option Int := if l.bears then db.numberOf vs l.type l.attributes else none

def Knows (db : Database V) (line : List Label) : Prop := ∀ l ∈ line, l.bears = true → (db.idAt vs l).isSome = true

/-- The ids on a way up, by type; for each type that of the nearest node. -/
def contextOf (db : Database V) : List Label → Context
  | [] => .empty
  | l :: above => match db.idAt vs l with
    | some n => (contextOf db above).insert l.type n
    | none => contextOf db above

def parentOf (db : Database V) (above : List Label) : Option (String × Int) :=
  above.head?.bind fun l => (db.idAt vs l).map (l.type, ·)

variable {vs} {db db' : Database V} {l : Label} {line : List Label}

theorem idAt_bearing (bears : l.bears = true) : db.idAt vs l = db.numberOf vs l.type l.attributes := if_pos bears

theorem idAt_container (container : l.bears = false) : db.idAt vs l = none := by simp [idAt, container]

theorem idAt_bears {n : Int} (id : db.idAt vs l = some n) : l.bears = true := by
  cases bears : l.bears with
  | true => rfl
  | false => rw [idAt_container bears] at id; cases id

theorem Knows.tail (knows : db.Knows vs (l :: line)) : db.Knows vs line :=
  fun k hk => knows k (List.mem_cons_of_mem _ hk)

theorem Knows.cons (knows : db.Knows vs line) (first : l.bears = true → (db.idAt vs l).isSome = true) :
    db.Knows vs (l :: line) := by
  intro k hk
  rcases List.mem_cons.1 hk with rfl | hk
  · exact first
  · exact knows k hk

theorem parentOf_eq_some {above : List Label} {type : String} {n : Int} :
    db.parentOf vs above = some (type, n) ↔ ∃ p, above.head? = some p ∧ p.type = type ∧ db.idAt vs p = some n := by
  simp only [parentOf, Option.bind_eq_some_iff, Option.map_eq_some_iff, Prod.mk.injEq]
  constructor
  · rintro ⟨p, head, k, id, type, rfl⟩
    exact ⟨p, head, type, id⟩
  · rintro ⟨p, head, type, id⟩
    exact ⟨p, head, n, id, type, rfl⟩

section Growing

variable (grows : db.Grows db')
include grows

theorem Grows.idAt (known : l.bears = true → (db.idAt vs l).isSome = true) : db'.idAt vs l = db.idAt vs l := by
  cases bears : l.bears with
  | false => rw [idAt_container bears, idAt_container bears]
  | true =>
    obtain ⟨n, id⟩ := Option.isSome_iff_exists.1 (known bears)
    rw [id]
    rw [idAt_bearing bears] at id ⊢
    exact grows.numberOf id

theorem Grows.knows (knows : db.Knows vs line) : db'.Knows vs line := by
  intro l mem bears
  rw [grows.idAt (knows l mem)]
  exact knows l mem bears

theorem Grows.contextOf (knows : db.Knows vs line) : db'.contextOf vs line = db.contextOf vs line := by
  induction line with
  | nil => rfl
  | cons l above ih =>
    rw [Database.contextOf, Database.contextOf, ih knows.tail, grows.idAt (knows l List.mem_cons_self)]

theorem Grows.parentOf (knows : db.Knows vs line) : db'.parentOf vs line = db.parentOf vs line := by
  cases line with
  | nil => rfl
  | cons l above =>
    simp only [Database.parentOf, List.head?_cons, Option.bind_some, grows.idAt (knows l List.mem_cons_self)]

end Growing

theorem mem_contextOf {x : String × Int} (mem : x ∈ (db.contextOf vs line).entries) :
    ∃ l ∈ line, l.type = x.1 ∧ db.idAt vs l = some x.2 := by
  induction line with
  | nil => cases mem
  | cons l above ih =>
    rw [contextOf] at mem
    cases id : db.idAt vs l with
    | none =>
      rw [id] at mem
      obtain ⟨k, hk, found⟩ := ih mem
      exact ⟨k, List.mem_cons_of_mem _ hk, found⟩
    | some n =>
      rw [id] at mem
      rcases (TextMap.mem_insert _ _ _ _).1 mem with rfl | ⟨_, mem⟩
      · exact ⟨l, List.mem_cons_self, rfl, id⟩
      · obtain ⟨k, hk, found⟩ := ih mem
        exact ⟨k, List.mem_cons_of_mem _ hk, found⟩

/-- The id carried for a type is that of the nearest node of the type with attributes. -/
theorem contextOf_get? (knows : db.Knows vs line) (type : String) :
    (db.contextOf vs line).get? type = (nearest? type line).bind (db.idAt vs) := by
  induction line with
  | nil => rfl
  | cons l above ih =>
    rw [contextOf, nearest?, List.find?_cons]
    cases bears : l.bears with
    | false =>
      rw [idAt_container bears]
      exact ih knows.tail
    | true =>
      obtain ⟨n, id⟩ := Option.isSome_iff_exists.1 (knows l List.mem_cons_self bears)
      rw [id]
      by_cases same : l.type = type
      · simp [TextMap.get?_insert, same, id]
      · simpa [TextMap.get?_insert, same, Ne.symm same, nearest?] using ih knows.tail

theorem carried_contextOf {m : Model} (lawful : Lawful m line) : Carried m db (db.contextOf vs line) where
  entities := fun x mem => by
    obtain ⟨l, hl, type, _⟩ := mem_contextOf mem
    rw [← type]
    exact lawful.entities l hl
  there := fun x mem => by
    obtain ⟨l, _, type, id⟩ := mem_contextOf mem
    rw [idAt_bearing (idAt_bears id)] at id
    rw [← type]
    exact hasId_of_numberOf id

end Database

end TreeStore
