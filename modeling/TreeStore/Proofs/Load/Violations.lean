import TreeStore.Proofs.Load.Trail

/-! What the check of a tree accepts: a flat walk over the nodes from the top down, at each of which the
conditions are tried in a fixed order. -/

namespace TreeStore

/-! ### One node -/

namespace Trail

variable (h : Hierarchy) (maxDepth : Nat)

/-- The hierarchy has a relation to the node from its parent; the root needs none. -/
def Registered (x : Trail) : Prop := ∀ p ∈ x.above.head?, (h.relation? p.type x.node.type).isSome = true

structure Conforms (x : Trail) : Prop where
  registered : x.Registered h
  within : x.path.depth ≤ maxDepth
  type : Ident.isValid x.node.type = true
  names : ∀ k ∈ x.node.attributes.keys, Ident.isValid k = true
  apart : x.node.attributes.keys.Pairwise fun a b => Text.lower a ≠ Text.lower b

/-- What is wrong with a node: the first of the conditions that it breaks. -/
inductive Violates (x : Trail) : Violation → Prop
  | notChild {p : Label} (parent : x.above.head? = some p) (unregistered : h.relation? p.type x.node.type = none) :
      Violates x (.notChild x.node.type p.type (h.childrenOf p.type))
  | tooDeep (registered : x.Registered h) (deep : maxDepth < x.path.depth) : Violates x (.tooDeep maxDepth)
  | badType (registered : x.Registered h) (within : x.path.depth ≤ maxDepth) (bad : Ident.isValid x.node.type = false) :
      Violates x (.badType x.node.type)
  | badAttribute (registered : x.Registered h) (within : x.path.depth ≤ maxDepth)
      (type : Ident.isValid x.node.type = true) {before after : List String} {key : String}
      (keys : x.node.attributes.keys = before ++ key :: after) (good : ∀ k ∈ before, Ident.isValid k = true)
      (bad : Ident.isValid key = false) : Violates x (.badAttribute key)
  | sameAttribute (registered : x.Registered h) (within : x.path.depth ≤ maxDepth)
      (type : Ident.isValid x.node.type = true) (names : ∀ k ∈ x.node.attributes.keys, Ident.isValid k = true)
      {before after : List String} {first second : String} (keys : x.node.attributes.keys = before ++ second :: after)
      (apart : before.Pairwise fun a b => Text.lower a ≠ Text.lower b) (mem : first ∈ before)
      (same : Text.lower first = Text.lower second) : Violates x (.sameAttribute first second)

/-- What the check says of a node once the nodes before it have passed. -/
def verdict (x : Trail) : Except (NodePath × Violation) Unit :=
  match x.above.head?.filter fun p => !h.has p.type x.node.type with
  | some p => .error (x.path, .notChild x.node.type p.type (h.childrenOf p.type))
  | none => match Tree.ownViolation? maxDepth x.path x.node.type x.node.attributes.keys with
    | some v => .error (x.path, v)
    | none => .ok ()

end Trail

/-! ### Attributes that differ in case only -/

namespace Tree

theorem sameKeys?_eq_none {before keys : List String} :
    sameKeys? before keys = none ↔
      keys.Pairwise (fun a b => Text.lower a ≠ Text.lower b) ∧
        ∀ k ∈ before, ∀ key ∈ keys, Text.lower k ≠ Text.lower key := by
  induction keys generalizing before with
  | nil => simp [sameKeys?]
  | cons key rest ih =>
    rw [sameKeys?]
    cases found : before.find? fun k => Text.lower k = Text.lower key with
    | some first =>
      have same : Text.lower first = Text.lower key := by simpa using List.find?_some found
      refine ⟨(nomatch ·), fun ⟨_, apart⟩ => ?_⟩
      exact absurd same (apart first (List.mem_of_find?_eq_some found) key List.mem_cons_self)
    | none =>
      have new : ∀ k ∈ before, Text.lower k ≠ Text.lower key := by simpa using List.find?_eq_none.1 found
      simp only [ih, List.pairwise_cons, List.forall_mem_append, List.forall_mem_cons]
      constructor
      · rintro ⟨rest, old, own, _⟩
        exact ⟨⟨own, rest⟩, fun k mem => ⟨new k mem, old k mem⟩⟩
      · rintro ⟨⟨own, rest⟩, old⟩
        exact ⟨rest, fun k mem => (old k mem).2, own, List.forall_mem_nil _⟩

theorem sameKeys?_eq_some {before keys : List String} {first second : String}
    (distinct : before.Pairwise fun a b => Text.lower a ≠ Text.lower b) :
    sameKeys? before keys = some (first, second) ↔
      ∃ early late, keys = early ++ second :: late ∧
        (before ++ early).Pairwise (fun a b => Text.lower a ≠ Text.lower b) ∧ first ∈ before ++ early ∧
          Text.lower first = Text.lower second := by
  induction keys generalizing before with
  | nil => simp [sameKeys?]
  | cons key rest ih =>
    rw [sameKeys?]
    cases found : before.find? fun k => Text.lower k = Text.lower key with
    | some k =>
      have mem := List.mem_of_find?_eq_some found
      have same : Text.lower k = Text.lower key := by simpa using List.find?_some found
      constructor
      · intro eq
        cases eq
        exact ⟨[], rest, rfl, by simpa using distinct, by simpa using mem, same⟩
      · rintro ⟨early, late, eq, apart, mem', same'⟩
        cases early with
        | nil =>
          obtain ⟨rfl, rfl⟩ := List.cons.inj eq
          rw [List.append_nil] at apart mem'
          have lowered : (before.map Text.lower).Nodup := List.pairwise_map.2 apart
          rw [List.inj_on_of_nodup_map lowered mem mem' (same.trans same'.symm)]
        | cons key' early =>
          obtain ⟨rfl, rfl⟩ := List.cons.inj eq
          exact absurd same ((List.pairwise_append.1 apart).2.2 k mem key List.mem_cons_self)
    | none =>
      have new : ∀ k ∈ before, Text.lower k ≠ Text.lower key := by simpa using List.find?_eq_none.1 found
      have distinct' : (before ++ [key]).Pairwise fun a b => Text.lower a ≠ Text.lower b :=
        List.pairwise_append.2 ⟨distinct, List.pairwise_singleton .., fun k mem k' mem' => by
          rw [List.mem_singleton.1 mem']
          exact new k mem⟩
      rw [ih distinct']
      constructor
      · rintro ⟨early, late, rfl, apart, mem, same⟩
        exact ⟨key :: early, late, rfl, by simpa using apart, by simpa using mem, same⟩
      · rintro ⟨early, late, eq, apart, mem, same⟩
        cases early with
        | nil =>
          obtain ⟨rfl, rfl⟩ := List.cons.inj eq
          rw [List.append_nil] at mem
          exact absurd same (new first mem)
        | cons key' early =>
          obtain ⟨rfl, rfl⟩ := List.cons.inj eq
          exact ⟨early, late, rfl, by simpa using apart, by simpa using mem, same⟩

end Tree

/-! ### The verdict on a node -/

namespace Trail

variable {h : Hierarchy} {maxDepth : Nat} {x : Trail} {v : Violation}

theorem not_registered : ¬ x.Registered h ↔ ∃ p, x.above.head? = some p ∧ h.relation? p.type x.node.type = none := by
  simp [Registered]

theorem filter_parent_eq_none :
    (x.above.head?.filter fun p => !h.has p.type x.node.type) = none ↔ x.Registered h := by
  simp [Registered, Option.filter_eq_none_iff, Hierarchy.relation?_isSome]

theorem Registered.verdict (registered : x.Registered h) : x.verdict h maxDepth =
    match Tree.ownViolation? maxDepth x.path x.node.type x.node.attributes.keys with
    | some v => .error (x.path, v)
    | none => .ok () := by
  rw [Trail.verdict, filter_parent_eq_none.2 registered]

theorem firstInvalid {keys before after : List String} {key : String} (eq : keys = before ++ key :: after)
    (good : ∀ k ∈ before, Ident.isValid k = true) (bad : Ident.isValid key = false) :
    keys.find? (!Ident.isValid ·) = some key := by
  subst eq
  rw [List.find?_append, List.find?_eq_none.2 fun k mem => by simp [good k mem], Option.none_or]
  simp [bad]

theorem noInvalid {keys : List String} (names : ∀ k ∈ keys, Ident.isValid k = true) :
    keys.find? (!Ident.isValid ·) = none :=
  List.find?_eq_none.2 fun k mem => by simp [names k mem]

theorem Conforms.verdict (conforms : x.Conforms h maxDepth) : x.verdict h maxDepth = .ok () := by
  have apart : Tree.sameKeys? [] x.node.attributes.keys = none :=
    Tree.sameKeys?_eq_none.2 ⟨conforms.apart, List.forall_mem_nil _⟩
  have own : Tree.ownViolation? maxDepth x.path x.node.type x.node.attributes.keys = none := by
    simp [Tree.ownViolation?, Nat.not_lt.2 conforms.within, conforms.type, noInvalid conforms.names, apart]
  rw [conforms.registered.verdict, own]

theorem Violates.verdict (violates : x.Violates h maxDepth v) : x.verdict h maxDepth = .error (x.path, v) := by
  cases violates with
  | @notChild p parent unregistered =>
    have missing : h.has p.type x.node.type = false := by rw [← Hierarchy.relation?_isSome, unregistered]; rfl
    simp [Trail.verdict, parent, Option.filter, missing]
  | tooDeep registered deep =>
    rw [registered.verdict, Tree.ownViolation?, if_pos deep]
  | badType registered within bad =>
    rw [registered.verdict, Tree.ownViolation?, if_neg (Nat.not_lt.2 within), if_pos (by rw [bad]; rfl)]
  | badAttribute registered within type keys good bad =>
    rw [registered.verdict, Tree.ownViolation?, if_neg (Nat.not_lt.2 within), if_neg (by rw [type]; decide),
      firstInvalid keys good bad]
  | @sameAttribute registered within type names before after first second keys apart mem same =>
    have found : Tree.sameKeys? [] x.node.attributes.keys = some (first, second) :=
      (Tree.sameKeys?_eq_some .nil).2 ⟨before, after, keys, by simpa using apart, by simpa using mem, same⟩
    rw [registered.verdict, Tree.ownViolation?, if_neg (Nat.not_lt.2 within), if_neg (by rw [type]; decide),
      noInvalid names, found]
    rfl

/-- A node conforms, or it breaks a condition. -/
theorem conforms_or_violates (h : Hierarchy) (maxDepth : Nat) (x : Trail) :
    x.Conforms h maxDepth ∨ ∃ v, x.Violates h maxDepth v := by
  by_cases registered : x.Registered h
  swap
  · obtain ⟨p, parent, unregistered⟩ := not_registered.1 registered
    exact .inr ⟨_, .notChild parent unregistered⟩
  rcases Nat.lt_or_ge maxDepth x.path.depth with deep | within
  · exact .inr ⟨_, .tooDeep registered deep⟩
  cases type : Ident.isValid x.node.type with
  | false => exact .inr ⟨_, .badType registered within type⟩
  | true =>
    cases invalid : x.node.attributes.keys.find? (!Ident.isValid ·) with
    | some key =>
      obtain ⟨bad, before, after, keys, good⟩ := List.find?_eq_some_iff_append.1 invalid
      exact .inr ⟨_, .badAttribute registered within type keys (by simpa using good) (by simpa using bad)⟩
    | none =>
      have names : ∀ k ∈ x.node.attributes.keys, Ident.isValid k = true := by
        simpa using List.find?_eq_none.1 invalid
      cases twice : Tree.sameKeys? [] x.node.attributes.keys with
      | none => exact .inl ⟨registered, within, type, names, (Tree.sameKeys?_eq_none.1 twice).1⟩
      | some pair =>
        obtain ⟨early, late, keys, apart, mem, same⟩ := (Tree.sameKeys?_eq_some .nil).1 twice
        exact .inr ⟨_, .sameAttribute registered within type names keys apart mem same⟩

theorem verdict_eq_ok : x.verdict h maxDepth = .ok () ↔ x.Conforms h maxDepth := by
  refine ⟨fun passed => ?_, Conforms.verdict⟩
  rcases conforms_or_violates h maxDepth x with conforms | ⟨v, violates⟩
  · exact conforms
  · exact nomatch violates.verdict.symm.trans passed

theorem verdict_eq_error {path : NodePath} :
    x.verdict h maxDepth = .error (path, v) ↔ path = x.path ∧ x.Violates h maxDepth v := by
  constructor
  · intro failed
    rcases conforms_or_violates h maxDepth x with conforms | ⟨w, violates⟩
    · exact nomatch conforms.verdict.symm.trans failed
    · cases violates.verdict.symm.trans failed
      exact ⟨rfl, violates⟩
  · rintro ⟨rfl, violates⟩
    exact violates.verdict

end Trail

/-! ### The check as a walk -/

namespace Tree

variable {h : Hierarchy} {maxDepth : Nat}

theorem trailsAt_head (path : NodePath) (above : List Label) (t : Tree) :
    ∃ below, t.trailsAt path above = ⟨path, t.label, above⟩ :: below := by
  cases t
  exact ⟨_, rfl⟩

mutual

theorem checkAt_eq {path : NodePath} {above : List Label} : (t : Tree) →
    (registered : (⟨path, t.label, above⟩ : Trail).Registered h) →
    t.checkAt h maxDepth path = (t.trailsAt path above).forM (·.verdict h maxDepth)
  | ⟨type, attributes, children⟩, registered => by
    have allowed : (⟨path, ⟨type, attributes⟩, above⟩ : Trail).Registered h := registered
    rw [checkAt, trailsAt, List.forM_eq_forM, List.forM_cons, allowed.verdict, ← List.forM_eq_forM]
    dsimp only
    cases ownViolation? maxDepth path type attributes.keys with
    | some v => rfl
    | none => exact checkChildren_eq ⟨type, attributes⟩ children

theorem checkChildren_eq {path : NodePath} (parent : Label) {above : List Label} {index : Nat} : (ts : List Tree) →
    checkChildren h maxDepth path parent.type index ts =
      (trailsBelow path (parent :: above) index ts).forM (·.verdict h maxDepth)
  | [] => rfl
  | c :: rest => by
    rw [checkChildren, trailsBelow, List.forM_eq_forM, List.forM_append, ← List.forM_eq_forM,
      ← checkChildren_eq parent rest]
    cases linked : h.has parent.type c.type with
    | false =>
      -- The first node of the child's part is the child itself, which has no relation from its parent.
      obtain ⟨below, eq⟩ := c.trailsAt_head (path.child c.type index) (parent :: above)
      have unregistered : h.relation? parent.type c.type = none := by
        rw [← Option.not_isSome_iff_eq_none, Hierarchy.relation?_isSome, linked]
        decide
      have first : (⟨path.child c.type index, c.label, parent :: above⟩ : Trail).Violates h maxDepth
          (.notChild c.type parent.type (h.childrenOf parent.type)) := .notChild rfl unregistered
      rw [eq, List.forM_eq_forM, List.forM_cons, first.verdict]
      rfl
    | true =>
      have registered : (⟨path.child c.type index, c.label, parent :: above⟩ : Trail).Registered h := by
        intro p head
        cases head
        exact Hierarchy.relation?_isSome.trans linked
      rw [← checkAt_eq c registered]
      rfl

end

theorem check_eq (h : Hierarchy) (maxDepth : Nat) (t : Tree) :
    t.check h maxDepth = t.trails.forM (·.verdict h maxDepth) :=
  checkAt_eq t fun _ head => nomatch head

/-! ### Depth and places -/

mutual

theorem trailsAt_depth {n : Nat} {path : NodePath} {above : List Label} : (t : Tree) →
    ((∀ x ∈ t.trailsAt path above, x.path.depth ≤ n) ↔ path.depth + t.depth ≤ n + 1)
  | ⟨type, attributes, children⟩ => by
    rw [trailsAt, List.forall_mem_cons, Tree.depth]
    change path.depth ≤ n ∧ _ ↔ _
    constructor
    · rintro ⟨own, below⟩
      have bound := (trailsBelow_depth own children).1 below
      omega
    · intro bound
      have own : path.depth ≤ n := by omega
      exact ⟨own, (trailsBelow_depth own children).2 (by omega)⟩

theorem trailsBelow_depth {n : Nat} {path : NodePath} {above : List Label} {index : Nat} (within : path.depth ≤ n) :
    (ts : List Tree) → ((∀ x ∈ trailsBelow path above index ts, x.path.depth ≤ n) ↔ path.depth + depths ts ≤ n)
  | [] => by simpa [trailsBelow, depths] using within
  | c :: rest => by
    have below : (path.child c.type index).depth = path.depth + 1 := by simp [NodePath.child, NodePath.depth]
    rw [trailsBelow, List.forall_mem_append, trailsAt_depth c, trailsBelow_depth within rest, depths, below]
    omega

end

theorem trails_depth {n : Nat} (t : Tree) : (∀ x ∈ t.trails, x.path.depth ≤ n) ↔ t.depth ≤ n := by
  have root : (⟨t.type, []⟩ : NodePath).depth = 1 := rfl
  rw [trails, trailsAt_depth, root]
  omega

/-- The part of a tree to which steps lead: at each, the child of that number, which has to be of that type. -/
def follow? : Tree → List (String × Nat) → Option Tree
  | t, [] => some t
  | t, (type, index) :: rest => match t.children[index]? with
    | some c => if c.type = type then c.follow? rest else none
    | none => none

mutual

theorem trailsAt_follow {path : NodePath} {above : List Label} : (t : Tree) → {x : Trail} →
    (mem : x ∈ t.trailsAt path above) → ∃ steps u, x.path = ⟨path.root, path.steps ++ steps⟩ ∧
      t.follow? steps = some u ∧ u.label = x.node
  | ⟨type, attributes, children⟩, x, mem => by
    rw [trailsAt] at mem
    rcases List.mem_cons.1 mem with rfl | mem
    · exact ⟨[], _, by rw [List.append_nil], rfl, rfl⟩
    · obtain ⟨i, c, steps, u, inside, place, found, same⟩ := trailsBelow_follow children mem
      refine ⟨(c.type, i) :: steps, u, ?_, ?_, same⟩
      · rw [place, Nat.zero_add]
      · simp [follow?, inside, found]

theorem trailsBelow_follow {path : NodePath} {above : List Label} {index : Nat} : (ts : List Tree) → {x : Trail} →
    (mem : x ∈ trailsBelow path above index ts) → ∃ i c steps u, ts[i]? = some c ∧
      x.path = ⟨path.root, path.steps ++ (c.type, index + i) :: steps⟩ ∧ c.follow? steps = some u ∧ u.label = x.node
  | c :: rest, x, mem => by
    rw [trailsBelow] at mem
    rcases List.mem_append.1 mem with mem | mem
    · obtain ⟨steps, u, place, found, same⟩ := trailsAt_follow c mem
      exact ⟨0, c, steps, u, rfl, by rw [place]; simp [NodePath.child], found, same⟩
    · obtain ⟨i, d, steps, u, inside, place, found, same⟩ := trailsBelow_follow rest mem
      exact ⟨i + 1, d, steps, u, inside, by rw [place, Nat.add_right_comm, Nat.add_assoc], found, same⟩

end

/-- The place of a node leads to it from the root. -/
theorem trails_follow {t : Tree} {x : Trail} (mem : x ∈ t.trails) :
    x.path.root = t.type ∧ ∃ u, t.follow? x.path.steps = some u ∧ u.label = x.node := by
  obtain ⟨steps, u, place, found, same⟩ := trailsAt_follow t mem
  rw [place]
  exact ⟨rfl, u, found, same⟩

/-! ### Conforming trees -/

/-- A tree that a hierarchy allows, up to a depth. -/
structure Conforms (h : Hierarchy) (maxDepth : Nat) (t : Tree) : Prop where
  depth : t.depth ≤ maxDepth
  types : ∀ x ∈ t.trails, Ident.isValid x.node.type = true
  names : ∀ x ∈ t.trails, ∀ k ∈ x.node.attributes.keys, Ident.isValid k = true
  apart : ∀ x ∈ t.trails, x.node.attributes.keys.Pairwise fun a b => Text.lower a ≠ Text.lower b
  registered : ∀ x ∈ t.trails, ∀ p ∈ x.above.head?, (h.relation? p.type x.node.type).isSome = true

theorem conforms_iff {t : Tree} : t.Conforms h maxDepth ↔ ∀ x ∈ t.trails, x.Conforms h maxDepth where
  mp conforms x mem :=
    ⟨conforms.registered x mem, t.trails_depth.2 conforms.depth x mem, conforms.types x mem, conforms.names x mem,
      conforms.apart x mem⟩
  mpr each :=
    ⟨t.trails_depth.1 fun x mem => (each x mem).within, fun x mem => (each x mem).type,
      fun x mem => (each x mem).names, fun x mem => (each x mem).apart, fun x mem => (each x mem).registered⟩

theorem check_eq_ok {t : Tree} : t.check h maxDepth = .ok () ↔ t.Conforms h maxDepth := by
  rw [check_eq, forM_eq_ok, conforms_iff]
  exact forall₂_congr fun x _ => Trail.verdict_eq_ok

/-- The check fails at the first node that breaks a condition, and says what is wrong there. -/
theorem check_eq_error {t : Tree} {path : NodePath} {v : Violation} : t.check h maxDepth = .error (path, v) ↔
    ∃ before x after, t.trails = before ++ x :: after ∧ (∀ y ∈ before, y.Conforms h maxDepth) ∧
      x.Violates h maxDepth v ∧ x.path = path := by
  rw [check_eq, forM_eq_error]
  simp only [Trail.verdict_eq_ok, Trail.verdict_eq_error]
  refine exists₃_congr fun before x after => and_congr_right fun _ => and_congr_right fun _ => ?_
  rw [eq_comm, and_comm]

end Tree

end TreeStore
