import Mathlib.Logic.Relation
import TreeStore.Infer
import TreeStore.Proofs.Names
import TreeStore.Proofs.TextMap

/-! Inference goes through a document once and declares on the way what the nodes that it builds state: an entity for
each node, an attribute for each key, and a relation for each child. In the end just that is declared. -/

namespace TreeStore

/-- What an entity can declare, and a node can state. -/
inductive Fact where
  | entity (name : String)
  | key (entity key : String)
  | child (entity target : String)

inductive Entity.Declares (e : Entity) : Fact → Prop
  | entity : Declares e (.entity e.name.text)
  | key {a : Attribute} (own : a ∈ e.attributes) : Declares e (.key e.name.text a.name.text)
  | child {r : Relation} (own : r ∈ e.relations) : Declares e (.child e.name.text r.target.text)

def Declared (es : List Entity) (f : Fact) : Prop := ∃ e ∈ es, e.Declares f

inductive Tree.States : Tree → Fact → Prop
  | entity (t : Tree) : States t (.entity t.type)
  | key {t : Tree} {k : String} (mem : k ∈ t.attributes.keys) : States t (.key t.type k)
  | child {t c : Tree} (mem : c ∈ t.children) : States t (.child t.type c.type)
  | inside {t c : Tree} {f : Fact} (mem : c ∈ t.children) (states : States c f) : States t f

/-! ### What nodes state -/

namespace Tree

variable {t c : Tree} {f : Fact}

theorem states_iff : t.States f ↔ f = .entity t.type ∨ (∃ k ∈ t.attributes.keys, f = .key t.type k) ∨
    ∃ c ∈ t.children, f = .child t.type c.type ∨ c.States f := by
  constructor
  · intro states
    cases states with
    | entity => exact .inl rfl
    | key mem => exact .inr (.inl ⟨_, mem, rfl⟩)
    | child mem => exact .inr (.inr ⟨_, mem, .inl rfl⟩)
    | inside mem states => exact .inr (.inr ⟨_, mem, .inr states⟩)
  · rintro (rfl | ⟨k, mem, rfl⟩ | ⟨c, mem, rfl | states⟩)
    · exact .entity t
    · exact .key mem
    · exact .child mem
    · exact .inside mem states

theorem states_addChild : { t with children := t.children ++ [c] }.States f ↔
    t.States f ∨ f = .child t.type c.type ∨ c.States f := by
  rw [states_iff, states_iff (t := t)]
  simp only [List.mem_append, List.mem_singleton, or_and_right, exists_or, exists_eq_left, or_assoc]

theorem states_insert {k v : String} : { t with attributes := t.attributes.insert k v }.States f ↔
    t.States f ∨ f = .key t.type k := by
  have keys : ∀ k', k' ∈ (t.attributes.insert k v).keys ↔ k' = k ∨ k' ∈ t.attributes.keys := by
    intro k'
    rw [TextMap.mem_keys, TextMap.get?_insert, TextMap.mem_keys]
    split <;> simp [*]
  rw [states_iff, states_iff (t := t)]
  simp only [keys, or_and_right, exists_or, exists_eq_left, or_assoc, or_comm, or_left_comm]

end Tree

namespace Infer

theorem states_emptyNode {n : Name} {f : Fact} : (emptyNode n).States f ↔ f = .entity n.text := by
  rw [Tree.states_iff]
  simp [emptyNode, TextMap.keys, TextMap.empty]

/-! ### Single declarations -/

variable {es : List Entity} {e : Entity} {n k : Name} {f : Fact}

theorem declares_iff : e.Declares f ↔ f = .entity e.name.text ∨ (∃ a ∈ e.attributes, f = .key e.name.text a.name.text) ∨
    ∃ r ∈ e.relations, f = .child e.name.text r.target.text := by
  constructor
  · intro declares
    cases declares with
    | entity => exact .inl rfl
    | key own => exact .inr (.inl ⟨_, own, rfl⟩)
    | child own => exact .inr (.inr ⟨_, own, rfl⟩)
  · rintro (rfl | ⟨a, own, rfl⟩ | ⟨r, own, rfl⟩)
    · exact .entity
    · exact .key own
    · exact .child own

theorem declared_entity {name : String} : Declared es (.entity name) ↔ ∃ e ∈ es, e.name.text = name := by
  simp [Declared, declares_iff, eq_comm]

theorem declared_key {name key : String} : Declared es (.key name key) ↔
    ∃ e ∈ es, e.name.text = name ∧ ∃ a ∈ e.attributes, a.name.text = key := by
  simp [Declared, declares_iff, eq_comm, and_left_comm]

theorem declared_child {name target : String} : Declared es (.child name target) ↔
    ∃ e ∈ es, e.name.text = name ∧ ∃ r ∈ e.relations, r.target.text = target := by
  simp [Declared, declares_iff, eq_comm, and_left_comm]

theorem declared_name : Declared es (.entity n.text) ↔ ∃ e ∈ es, e.name = n := by
  rw [declared_entity]
  exact exists_congr fun e => and_congr_right fun _ => ⟨Name.ext, congrArg Name.text⟩

/-- An attribute or a relation is declared once, and nothing else changes. -/
theorem addAttribute_declares : (addAttribute k e).Declares f ↔ e.Declares f ∨ f = .key e.name.text k.text := by
  unfold addAttribute
  split
  · next there =>
    obtain ⟨a, own, name⟩ := List.any_eq_true.1 there
    obtain rfl : a.name = k := of_decide_eq_true name
    refine ⟨.inl, fun declares => declares.elim id ?_⟩
    rintro rfl
    exact .key own
  · rw [declares_iff, declares_iff (e := e)]
    simp only [List.mem_append, List.mem_singleton, or_and_right, exists_or, exists_eq_left, or_assoc, or_comm,
      or_left_comm]

theorem addRelation_declares : (addRelation k e).Declares f ↔ e.Declares f ∨ f = .child e.name.text k.text := by
  unfold addRelation
  split
  · next there =>
    obtain ⟨r, own, target⟩ := List.any_eq_true.1 there
    obtain rfl : r.target = k := of_decide_eq_true target
    refine ⟨.inl, fun declares => declares.elim id ?_⟩
    rintro rfl
    exact .child own
  · rw [declares_iff, declares_iff (e := e)]
    simp only [List.mem_append, List.mem_singleton, or_and_right, exists_or, exists_eq_left, or_assoc]
    rfl

theorem declared_declare : Declared (declare n es) f ↔ Declared es f ∨ f = .entity n.text := by
  unfold declare
  split
  · next there =>
    obtain ⟨e, mem, name⟩ := List.any_eq_true.1 there
    obtain rfl : e.name = n := of_decide_eq_true name
    refine ⟨.inl, fun declares => declares.elim id ?_⟩
    rintro rfl
    exact ⟨e, mem, .entity⟩
  · have blank : (⟨n, [], []⟩ : Entity).Declares f ↔ f = .entity n.text := by simp [declares_iff]
    simp only [Declared, List.mem_append, List.mem_singleton, or_and_right, exists_or, exists_eq_left, blank]

theorem known_declare (n : Name) (es : List Entity) : ∃ e ∈ declare n es, e.name = n :=
  declared_name.1 (declared_declare.2 (.inr rfl))

theorem declared_update {g : Entity → Entity} (fact : String → Fact)
    (adds : ∀ e f, (g e).Declares f ↔ e.Declares f ∨ f = fact e.name.text) (known : ∃ e ∈ es, e.name = n) :
    Declared (update n g es) f ↔ Declared es f ∨ f = fact n.text := by
  simp only [Declared, update, List.mem_map, exists_exists_and_eq_and]
  constructor
  · rintro ⟨e, mem, declares⟩
    split at declares
    · next own =>
      rcases (adds e f).1 declares with declares | rfl
      · exact .inl ⟨e, mem, declares⟩
      · exact .inr (own ▸ rfl)
    · exact .inl ⟨e, mem, declares⟩
  · rintro (⟨e, mem, declares⟩ | rfl)
    · refine ⟨e, mem, ?_⟩
      split
      · exact (adds e f).2 (.inl declares)
      · exact declares
    · obtain ⟨e, mem, rfl⟩ := known
      refine ⟨e, mem, ?_⟩
      rw [if_pos rfl]
      exact (adds e _).2 (.inr rfl)

/-! ### Visits -/

inductive Step (es : List Entity) : List Entity → Prop
  | entity (n : Name) : Step es (declare n es)
  | key (n k : Name) : Step es (update n (addAttribute k) es)
  | child (n k : Name) : Step es (update n (addRelation k) es)

/-- What is declared and built after a visit: a node has gone on, and what it states in addition is declared in
addition. -/
structure Visited (declared : List Entity) (node : Tree) (after : List Entity × Tree) : Prop where
  type : after.2.type = node.type
  steps : Relation.ReflTransGen Step declared after.1
  exact : ∃ new : Fact → Prop, (∀ f, after.2.States f ↔ node.States f ∨ new f) ∧
    ∀ f, Declared after.1 f ↔ Declared declared f ∨ new f

namespace Visited

variable {declared : List Entity} {node : Tree} {after later : List Entity × Tree} {entity key : Name}

theorem refl (declared : List Entity) (node : Tree) : Visited declared node (declared, node) :=
  ⟨rfl, .refl, fun _ => False, by simp, by simp⟩

theorem trans (first : Visited declared node after) (second : Visited after.1 after.2 later) :
    Visited declared node later := by
  obtain ⟨new, states, declares⟩ := first.exact
  obtain ⟨new', states', declares'⟩ := second.exact
  refine ⟨second.type.trans first.type, first.steps.trans second.steps, fun f => new f ∨ new' f, fun f => ?_, fun f => ?_⟩
  · rw [states', states, or_assoc]
  · rw [declares', declares, or_assoc]

theorem known (visited : Visited declared node after) (known : ∃ e ∈ declared, e.name = entity) :
    ∃ e ∈ after.1, e.name = entity := by
  obtain ⟨new, _, declares⟩ := visited.exact
  exact declared_name.1 ((declares _).2 (.inl (declared_name.2 known)))

theorem text (known : ∃ e ∈ declared, e.name = entity) (own : node.type = entity.text) (value : String) :
    Visited declared node (update entity (addAttribute key) declared,
      { node with attributes := node.attributes.insert key.text value }) where
  type := rfl
  steps := .single (.key entity key)
  exact := by
    refine ⟨fun f => f = .key entity.text key.text, fun f => ?_, fun f => ?_⟩
    · rw [Tree.states_insert, own]
    · exact declared_update (.key · key.text) (fun _ _ => addAttribute_declares) known

/-- A child is declared before it is visited, with the relation that leads to it. -/
theorem child (known : ∃ e ∈ declared, e.name = entity) (own : node.type = entity.text)
    (below : Visited (declare key (update entity (addRelation key) declared)) (emptyNode key) after) :
    Visited declared node (after.1, { node with children := node.children ++ [after.2] }) where
  type := rfl
  steps := .head (.child entity key) (.head (.entity key) below.steps)
  exact := by
    obtain ⟨new, states, declares⟩ := below.exact
    have related : ∀ f, Declared (update entity (addRelation key) declared) f ↔
        Declared declared f ∨ f = .child entity.text key.text := fun f =>
      declared_update (.child · key.text) (fun _ _ => addRelation_declares) known
    refine ⟨fun f => f = .child entity.text key.text ∨ after.2.States f, fun f => ?_, fun f => ?_⟩
    · rw [Tree.states_addChild, own, below.type]
      rfl
    · simp only [declares, declared_declare, related, states, states_emptyNode, or_assoc]

end Visited

/-! ### What a visit does -/

/-- A visit to a node of an entity passes over what means nothing, notes an attribute, goes down to a child, which is
declared before with the relation that leads to it, and goes on from there. -/
inductive Visit : Name → List Entity × Tree → List Entity × Tree → Prop
  | nothing (entity : Name) (declared : List Entity) (node : Tree) : Visit entity (declared, node) (declared, node)
  | text (entity key : Name) (declared : List Entity) (node : Tree) (value : String) :
    Visit entity (declared, node) (update entity (addAttribute key) declared,
      { node with attributes := node.attributes.insert key.text value })
  | child {entity key : Name} {declared : List Entity} {after : List Entity × Tree} (node : Tree)
    (below : Visit key (declare key (update entity (addRelation key) declared), emptyNode key) after) :
    Visit entity (declared, node) (after.1, { node with children := node.children ++ [after.2] })
  | next {entity : Name} {before after later : List Entity × Tree} (first : Visit entity before after)
    (second : Visit entity after later) : Visit entity before later

section Equations

variable (entity key : Name) (declared : List Entity) (node : Tree)

theorem visitFields_cons (text : String) (value : Json.Value) (rest : List (String × Json.Value)) :
    visitFields entity declared node ((text, value) :: rest) = match Name.ofText? text with
      | none => visitFields entity declared node rest
      | some key =>
        let after := visitValue entity key declared node value
        visitFields entity after.1 after.2 rest := rfl

/-- An object in a list is visited like one that stands alone. -/
theorem visitItems_object (fields : List (String × Json.Value)) (rest : List Json.Value) :
    visitItems entity key declared node (.object fields :: rest) =
      let after := visitValue entity key declared node (.object fields)
      visitItems entity key after.1 after.2 rest := rfl

end Equations

mutual

theorem visitFields_visit (entity : Name) : (fields : List (String × Json.Value)) → (declared : List Entity) →
    (node : Tree) → Visit entity (declared, node) (visitFields entity declared node fields)
  | [], declared, node => .nothing entity declared node
  | (text, value) :: rest, declared, node => by
    rw [visitFields_cons]
    cases Name.ofText? text with
    | none => exact visitFields_visit entity rest declared node
    | some key => exact .next (visitValue_visit entity key value declared node) (visitFields_visit entity rest _ _)

theorem visitValue_visit (entity key : Name) : (value : Json.Value) → (declared : List Entity) → (node : Tree) →
    Visit entity (declared, node) (visitValue entity key declared node value)
  | .object fields, _, node => .child node (visitFields_visit key fields _ _)
  | .list items, declared, node => visitItems_visit entity key items declared node
  | .null, declared, node => .nothing entity declared node
  | .flag _, declared, node => .text entity key declared node _
  | .int _, declared, node => .text entity key declared node _
  | .real _, declared, node => .text entity key declared node _
  | .text _, declared, node => .text entity key declared node _

theorem visitItems_visit (entity key : Name) : (items : List Json.Value) → (declared : List Entity) →
    (node : Tree) → Visit entity (declared, node) (visitItems entity key declared node items)
  | [], declared, node => .nothing entity declared node
  | item :: rest, declared, node => by
    have first : Visit entity (declared, node) (visitValue entity key declared node item) :=
      visitValue_visit entity key item declared node
    cases item with
    | object fields =>
      rw [visitItems_object]
      exact first.next (visitItems_visit entity key rest _ _)
    | _ => exact visitItems_visit entity key rest declared node

end

theorem Visit.visited {entity : Name} {before after : List Entity × Tree} (visit : Visit entity before after) :
    (known : ∃ e ∈ before.1, e.name = entity) → (own : before.2.type = entity.text) →
    Visited before.1 before.2 after := by
  induction visit with
  | nothing _ declared node => exact fun _ _ => .refl declared node
  | text entity key declared node value => exact fun known own => .text known own value
  | child node _ ih =>
    exact fun known own => .child known own (ih (known_declare _ _) rfl)
  | next _ _ ih ih' =>
    intro known own
    have first := ih known own
    exact first.trans (ih' (first.known known) (first.type.trans own))

/-! ### Documents -/

theorem ofValue_eq_ok {default : String} {v : Json.Value} {m : Model} {t : Tree}
    (inferred : ofValue default v = .ok (m, t)) :
    ∃ n fields, (m.entities, t) = visitFields n (declare n []) (emptyNode n) fields := by
  cases v with
  | object fields =>
    unfold ofValue at inferred
    dsimp only at inferred
    split at inferred
    · cases inferred
    · next n _ =>
      cases inferred
      exact ⟨n, _, rfl⟩
  | _ => cases inferred

/-- What the inferred model declares is what the inferred tree states. -/
theorem ofValue_exact {default : String} {v : Json.Value} {m : Model} {t : Tree}
    (inferred : ofValue default v = .ok (m, t)) :
    Relation.ReflTransGen Step [] m.entities ∧ ∀ f, Declared m.entities f ↔ t.States f := by
  obtain ⟨n, fields, eq⟩ := ofValue_eq_ok inferred
  have visited : Visited (declare n []) (emptyNode n) (m.entities, t) := by
    rw [eq]
    exact (visitFields_visit n fields _ _).visited (known_declare n []) rfl
  obtain ⟨new, states, declares⟩ := visited.exact
  refine ⟨.head (.entity n) visited.steps, fun f => ?_⟩
  have nothing : ¬ Declared [] f := by simp [Declared]
  rw [declares, states, declared_declare, states_emptyNode, or_iff_right nothing]

/-- What holds of a new entity, and still holds with another attribute or relation, holds of all that are declared. -/
theorem Step.each {P : Entity → Prop} (blank : ∀ n, P ⟨n, [], []⟩) (noted : ∀ k e, P e → P (addAttribute k e))
    (related : ∀ k e, P e → P (addRelation k e)) {es es' : List Entity} (steps : Relation.ReflTransGen Step es es')
    (before : ∀ e ∈ es, P e) : ∀ e ∈ es', P e := by
  have updated : ∀ {es : List Entity} (n : Name) {g : Entity → Entity}, (∀ e, P e → P (g e)) → (∀ e ∈ es, P e) →
      ∀ e ∈ update n g es, P e := by
    intro es n g keeps before e mem
    obtain ⟨e, own, rfl⟩ := List.mem_map.1 mem
    split
    · exact keeps e (before e own)
    · exact before e own
  induction steps with
  | refl => exact before
  | tail _ step ih =>
    cases step with
    | entity n =>
      unfold declare
      split
      · exact ih
      · simpa [or_imp, forall_and] using ⟨ih, blank n⟩
    | key n k => exact updated n (noted k) ih
    | child n k => exact updated n (related k) ih

/-- All attributes are texts. -/
theorem Step.texts {es es' : List Entity} (steps : Relation.ReflTransGen Step es es')
    (before : ∀ e ∈ es, ∀ a ∈ e.attributes, a.kind = .text) : ∀ e ∈ es', ∀ a ∈ e.attributes, a.kind = .text := by
  refine Step.each (fun _ a own => nomatch own) (fun k e texts => ?_) (fun k e texts => ?_) steps before
  · unfold addAttribute
    split
    · exact texts
    · simpa [or_imp, forall_and] using texts
  · unfold addRelation
    split <;> exact texts

end Infer

end TreeStore
