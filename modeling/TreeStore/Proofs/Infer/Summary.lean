import TreeStore.Proofs.Infer.Loading

/-! The inferred model sums up the inferred tree. Its entities are the types of the nodes, in the order in which they
first appear from the root down, and each declares just what the nodes of its type carry. -/

namespace TreeStore

/-! ### Nodes -/

namespace Tree

mutual

def nodes : Tree → List Tree
  | ⟨type, attributes, children⟩ => ⟨type, attributes, children⟩ :: nodesOf children

def nodesOf : List Tree → List Tree
  | [] => []
  | t :: rest => nodes t ++ nodesOf rest

end

def types (ts : List Tree) : List String := (nodesOf ts).map (·.type)

variable {t c n : Tree} {ts us : List Tree} {f : Fact}

theorem nodes_eq (t : Tree) : t.nodes = t :: nodesOf t.children := by
  cases t
  rfl

theorem mem_nodesOf : n ∈ nodesOf ts ↔ ∃ c ∈ ts, n ∈ c.nodes := by
  induction ts with
  | nil => simp [nodesOf]
  | cons c rest ih => simp [nodesOf, ih]

theorem mem_nodes : n ∈ t.nodes ↔ n = t ∨ ∃ c ∈ t.children, n ∈ c.nodes := by
  rw [nodes_eq, List.mem_cons, mem_nodesOf]

theorem types_append : types (ts ++ us) = types ts ++ types us := by
  induction ts with
  | nil => rfl
  | cons c rest ih =>
    unfold types at ih ⊢
    rw [List.cons_append, nodesOf, nodesOf, List.map_append, ih, List.map_append, List.append_assoc]

theorem types_singleton (t : Tree) : types [t] = t.type :: types t.children := by
  simp [types, nodesOf, nodes_eq]

mutual

theorem states_of_mem : (t : Tree) → (mem : n ∈ t.nodes) → (own : n.States f) → t.States f
  | ⟨_, _, children⟩, mem, own => by
    rcases List.mem_cons.1 mem with rfl | mem
    · exact own
    · obtain ⟨c, hc, states⟩ := states_of_mem_nodesOf children mem own
      exact .inside hc states

theorem states_of_mem_nodesOf : (ts : List Tree) → (mem : n ∈ nodesOf ts) → (own : n.States f) →
    ∃ c ∈ ts, c.States f
  | [], mem, _ => nomatch mem
  | c :: rest, mem, own => by
    rcases List.mem_append.1 mem with mem | mem
    · exact ⟨c, List.mem_cons_self, states_of_mem c mem own⟩
    · obtain ⟨d, hd, states⟩ := states_of_mem_nodesOf rest mem own
      exact ⟨d, List.mem_cons_of_mem _ hd, states⟩

end

theorem states_iff_nodes : t.States f ↔ ∃ n ∈ t.nodes, f = .entity n.type ∨
    (∃ k ∈ n.attributes.keys, f = .key n.type k) ∨ ∃ c ∈ n.children, f = .child n.type c.type := by
  constructor
  · intro states
    induction states with
    | entity t => exact ⟨t, mem_nodes.2 (.inl rfl), .inl rfl⟩
    | @key t k mem => exact ⟨t, mem_nodes.2 (.inl rfl), .inr (.inl ⟨k, mem, rfl⟩)⟩
    | @child t c mem => exact ⟨t, mem_nodes.2 (.inl rfl), .inr (.inr ⟨c, mem, rfl⟩)⟩
    | inside mem _ ih =>
      obtain ⟨n, below, carries⟩ := ih
      exact ⟨n, mem_nodes.2 (.inr ⟨_, mem, below⟩), carries⟩
  · rintro ⟨n, mem, rfl | ⟨k, own, rfl⟩ | ⟨c, own, rfl⟩⟩
    · exact states_of_mem t mem (.entity n)
    · exact states_of_mem t mem (.key own)
    · exact states_of_mem t mem (.child own)

theorem states_key {type k : String} : t.States (.key type k) ↔ ∃ n ∈ t.nodes, n.type = type ∧ k ∈ n.attributes.keys := by
  simp [states_iff_nodes, eq_comm, and_comm]

theorem states_child {type target : String} : t.States (.child type target) ↔
    ∃ n ∈ t.nodes, n.type = type ∧ ∃ c ∈ n.children, c.type = target := by
  simp [states_iff_nodes, eq_comm, and_left_comm]

end Tree

/-! ### Entities in their order -/

theorem nodup_eraseDups : (names : List String) → names.eraseDups.Nodup
  | [] => by simp
  | name :: rest => by
    rw [List.eraseDups_cons, List.nodup_cons, List.mem_eraseDups]
    exact ⟨by simp, nodup_eraseDups (rest.filter fun other => !other == name)⟩
termination_by names => names.length
decreasing_by exact Nat.lt_succ_of_le (List.length_filter_le _ _)

namespace Infer

def names (es : List Entity) : List String := es.map (·.name.text)

theorem addAttribute_name (key : Name) (e : Entity) : (addAttribute key e).name = e.name := by
  unfold addAttribute
  split <;> rfl

theorem addRelation_name (target : Name) (e : Entity) : (addRelation target e).name = e.name := by
  unfold addRelation
  split <;> rfl

theorem names_update {g : Entity → Entity} (keeps : ∀ e, (g e).name = e.name) (n : Name) (es : List Entity) :
    names (update n g es) = names es := by
  unfold names update
  rw [List.map_map]
  refine List.map_congr_left fun e _ => ?_
  dsimp only [Function.comp]
  split
  · rw [keeps]
  · rfl

/-- A name that has come before is not declared again. -/
theorem names_declare {es : List Entity} {came : List String} (before : names es = came.eraseDups) (n : Name) :
    names (declare n es) = (came ++ [n.text]).eraseDups := by
  have known : es.any (·.name = n) = true ↔ n.text ∈ came := by
    rw [← List.mem_eraseDups, ← before]
    simpa [names] using declared_name.symm.trans declared_entity
  unfold declare
  rw [List.eraseDups_append]
  split
  · next there => simpa [List.removeAll, known.1 there] using before
  · next new =>
    rw [names, List.map_append, ← names, before]
    simp [List.removeAll, List.eraseDups_cons, mt known.2 new]

theorem Visit.type {entity : Name} {before after : List Entity × Tree} (visit : Visit entity before after) :
    after.2.type = before.2.type := by
  induction visit with
  | next _ _ ih ih' => exact ih'.trans ih
  | _ => rfl

/-- A visit declares the types of the children that it adds as they come, each with all that is below it. -/
theorem Visit.order {entity : Name} {before after : List Entity × Tree} (visit : Visit entity before after) :
    ∃ more, after.2.children = before.2.children ++ more ∧ ∀ came, names before.1 = came.eraseDups →
      names after.1 = (came ++ Tree.types more).eraseDups := by
  -- What has come before is kept with its repetitions, so that two visits add up by `++`.
  induction visit with
  | nothing entity declared node => exact ⟨[], by simp, fun came eq => by simpa [Tree.types, Tree.nodesOf] using eq⟩
  | text entity key declared node value =>
    refine ⟨[], by simp, fun came eq => ?_⟩
    simpa [Tree.types, Tree.nodesOf, names_update (addAttribute_name key)] using eq
  | @child entity key declared after node below ih =>
    obtain ⟨more, children, order⟩ := ih
    refine ⟨[after.2], rfl, fun came eq => ?_⟩
    have here : names (declare key (update entity (addRelation key) declared)) = (came ++ [key.text]).eraseDups :=
      names_declare ((names_update (addRelation_name key) entity declared).trans eq) key
    rw [order _ here, Tree.types_singleton, below.type, children, List.append_assoc]
    rfl
  | next _ _ ih ih' =>
    obtain ⟨more, children, order⟩ := ih
    obtain ⟨more', children', order'⟩ := ih'
    refine ⟨more ++ more', by rw [children', children, List.append_assoc], fun came eq => ?_⟩
    rw [Tree.types_append, ← List.append_assoc]
    exact order' _ (order came eq)

/-! ### What an entity declares -/

/-- No attribute and no relation is declared twice, and relations are named after their targets. -/
structure Distinct (e : Entity) : Prop where
  keys : (e.attributes.map (·.name.text)).Nodup
  targets : (e.relations.map (·.target.text)).Nodup
  named : ∀ r ∈ e.relations, r.name.text = relationName r.target.text

theorem distinct_append {α : Type} {f : α → Name} {xs : List α} {x : α} (new : ¬ xs.any (f · = f x) = true)
    (distinct : (xs.map fun x => (f x).text).Nodup) : ((xs ++ [x]).map fun x => (f x).text).Nodup := by
  have absent : (f x).text ∉ xs.map fun x => (f x).text := fun mem => by
    obtain ⟨y, own, same⟩ := List.mem_map.1 mem
    exact new (List.any_eq_true.2 ⟨y, own, decide_eq_true (Name.ext same)⟩)
  rw [List.map_append, List.map_singleton, ← List.concat_eq_append]
  exact distinct.concat absent

theorem Distinct.addAttribute {e : Entity} (key : Name) (distinct : Distinct e) : Distinct (addAttribute key e) := by
  unfold Infer.addAttribute
  split
  · exact distinct
  · next new => exact ⟨distinct_append (f := Attribute.name) new distinct.keys, distinct.targets, distinct.named⟩

theorem Distinct.addRelation {e : Entity} (target : Name) (distinct : Distinct e) : Distinct (addRelation target e) := by
  unfold Infer.addRelation
  split
  · exact distinct
  · next new =>
    refine ⟨distinct.keys, distinct_append (f := Relation.target) new distinct.targets, ?_⟩
    simpa [or_imp, forall_and] using ⟨distinct.named, rfl⟩

theorem Step.distinct {es : List Entity} (steps : Relation.ReflTransGen Step [] es) : ∀ e ∈ es, Distinct e :=
  Step.each (fun _ => ⟨.nil, .nil, fun _ own => nomatch own⟩) (fun key _ distinct => distinct.addAttribute key)
    (fun target _ distinct => distinct.addRelation target) steps fun _ mem => nomatch mem

/-! ### Documents -/

/-- A model is inferred from an object whose root has a name, and only from such a one. -/
theorem ofValue_isOk {default : String} {v : Json.Value} : (∃ m t, ofValue default v = .ok (m, t)) ↔
    ∃ fields, v = .object fields ∧ Text.isBlank (rootOf default fields).1 = false := by
  cases v with
  | object fields =>
    cases blank : Text.isBlank (rootOf default fields).1 <;> simp [ofValue, Name.ofText?, blank]
  | _ => simp [ofValue]

theorem ofValue_names {default : String} {v : Json.Value} {m : Model} {t : Tree}
    (inferred : ofValue default v = .ok (m, t)) : names m.entities = (t.nodes.map (·.type)).eraseDups := by
  obtain ⟨n, fields, eq⟩ := ofValue_eq_ok inferred
  have visit : Visit n (declare n [], emptyNode n) (m.entities, t) := eq ▸ visitFields_visit n fields _ _
  obtain ⟨more, children, order⟩ := visit.order
  obtain rfl : t.children = more := children
  have root : names (declare n []) = ([] ++ [n.text]).eraseDups := names_declare rfl n
  rw [order _ root, Tree.nodes_eq, List.map_cons, visit.type]
  rfl

end Infer

/-- An entity sums up the nodes of its type: each of their keys is one attribute, a text, each type of their children is
the target of one relation, named after it, and there is nothing else. -/
structure Entity.SumsUp (e : Entity) (nodes : List Tree) : Prop where
  keys : (e.attributes.map (·.name.text)).Nodup
  texts : ∀ a ∈ e.attributes, a.kind = .text
  carried (key : String) : (∃ a ∈ e.attributes, a.name.text = key) ↔
    ∃ n ∈ nodes, n.type = e.name.text ∧ key ∈ n.attributes.keys
  targets : (e.relations.map (·.target.text)).Nodup
  named : ∀ r ∈ e.relations, r.name.text = "Has" ++ Text.capitalize r.target.text
  below (type : String) : (∃ r ∈ e.relations, r.target.text = type) ↔
    ∃ n ∈ nodes, n.type = e.name.text ∧ ∃ c ∈ n.children, c.type = type

/-- Inference refuses a document without an object, and a root without a name. Otherwise the entities are the types of
the nodes, each once, as they come from the root down, and every entity sums up the nodes of its type. -/
theorem inferred_exact (root : String) (v : Json.Value) :
    ((∃ m t, Infer.ofValue root v = .ok (m, t)) ↔
      ∃ fields, v = .object fields ∧ Text.isBlank (Infer.rootOf root fields).1 = false) ∧
    ∀ m t, Infer.ofValue root v = .ok (m, t) →
      m.entities.map (·.name.text) = (t.nodes.map (·.type)).eraseDups ∧
      (m.entities.map (·.name.text)).Nodup ∧
      ∀ e ∈ m.entities, e.SumsUp t.nodes := by
  refine ⟨Infer.ofValue_isOk, fun m t inferred => ?_⟩
  obtain ⟨steps, exact⟩ := Infer.ofValue_exact inferred
  have order : m.entities.map (·.name.text) = (t.nodes.map (·.type)).eraseDups := Infer.ofValue_names inferred
  have distinct : (m.entities.map (·.name.text)).Nodup := order ▸ nodup_eraseDups _
  have texts := Infer.Step.texts steps fun _ mem => nomatch mem
  refine ⟨order, distinct, fun e he => ?_⟩
  -- An entity is the only one of its name, so what is declared under the name is declared by it.
  have own {f : Entity} (hf : f ∈ m.entities) (same : f.name.text = e.name.text) : f = e :=
    List.inj_on_of_nodup_map distinct hf he same
  have once := Infer.Step.distinct steps e he
  refine ⟨once.keys, texts e he, fun key => ?_, once.targets, once.named, fun type => ?_⟩
  · rw [← Tree.states_key, ← exact, Infer.declared_key]
    exact ⟨fun has => ⟨e, he, rfl, has⟩, fun ⟨f, hf, same, has⟩ => own hf same ▸ has⟩
  · rw [← Tree.states_child, ← exact, Infer.declared_child]
    exact ⟨fun has => ⟨e, he, rfl, has⟩, fun ⟨f, hf, same, has⟩ => own hf same ▸ has⟩

/-- The boxes are declared after the shop that they are in, and once, though there are three of them. -/
theorem inferred_exact_boxed : Sample.boxedModel.entities.map (·.name.text) = ["Shop", "Box"] ∧
    ∀ e ∈ Sample.boxedModel.entities, e.SumsUp Sample.boxedTree.nodes := by
  obtain ⟨order, _, sums⟩ := (inferred_exact "Shop" Sample.boxedJson).2 _ _ Sample.boxed_inferred
  exact ⟨order.trans (by decide), sums⟩

end TreeStore
