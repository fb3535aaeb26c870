import Mathlib.Data.List.Basic
import TreeStore.Document.Source
import TreeStore.Proofs.Document.ReadBack

/-! Models and trees as YAML texts. Their content is made of texts, lists and dictionaries, not too many of which are
inside each other; whatever keeps such content through its text keeps models and trees. -/

namespace TreeStore

/-! ### Content of texts -/

namespace Node

mutual

/-- Whether a node consists of texts, plain lists, and plain dictionaries whose keys are texts. -/
def Textual : Node → Prop
  | .scalar s => ∃ text, s = .ofText text
  | .list form items => form = .plain ∧ TextualIn items
  | .dict tagged entries => tagged = false ∧ TextualOf entries
  | .broken => False

def TextualIn : List Node → Prop
  | [] => True
  | n :: rest => Textual n ∧ TextualIn rest

def TextualOf : List (Node × Node) → Prop
  | [] => True
  | (k, v) :: rest => (∃ key, k = .ofText key) ∧ Textual v ∧ TextualOf rest

end

mutual

def nesting : Node → Nat
  | .list _ items => nestingIn items + 1
  | .dict _ entries => nestingOf entries + 1
  | _ => 0

def nestingIn : List Node → Nat
  | [] => 0
  | n :: rest => max (nesting n) (nestingIn rest)

def nestingOf : List (Node × Node) → Nat
  | [] => 0
  | (k, v) :: rest => max (max (nesting k) (nesting v)) (nestingOf rest)

end

/-- Content of texts, with at most so many lists and dictionaries inside each other. -/
structure Simple (n : Node) (levels : Nat) : Prop where
  textual : n.Textual
  nested : n.nesting ≤ levels

variable {levels : Nat}

theorem Simple.mono {more : Nat} {n : Node} (simple : n.Simple levels) (le : levels ≤ more) : n.Simple more :=
  ⟨simple.textual, Nat.le_trans simple.nested le⟩

theorem simple_ofText (s : String) : (Node.ofText s).Simple levels := ⟨⟨s, rfl⟩, Nat.zero_le _⟩

theorem simple_ofList {items : List Node} (each : ∀ n ∈ items, n.Simple levels) :
    (Node.ofList items).Simple (levels + 1) := by
  have inside : TextualIn items ∧ nestingIn items ≤ levels := by
    induction items with
    | nil => exact ⟨trivial, Nat.zero_le _⟩
    | cons n rest ih =>
      have own := each n List.mem_cons_self
      have others := ih fun x mem => each x (List.mem_cons_of_mem _ mem)
      exact ⟨⟨own.textual, others.1⟩, Nat.max_le.2 ⟨own.nested, others.2⟩⟩
  exact ⟨⟨rfl, inside.1⟩, Nat.succ_le_succ inside.2⟩

theorem simple_ofFields {fields : List (String × Node)} (each : ∀ f ∈ fields, f.2.Simple levels) :
    (Node.ofFields fields).Simple (levels + 1) := by
  have inside : TextualOf (fields.map fun f => (.ofText f.1, f.2)) ∧
      nestingOf (fields.map fun f => (.ofText f.1, f.2)) ≤ levels := by
    induction fields with
    | nil => exact ⟨trivial, Nat.zero_le _⟩
    | cons f rest ih =>
      have own := each f List.mem_cons_self
      have others := ih fun x mem => each x (List.mem_cons_of_mem _ mem)
      refine ⟨⟨⟨f.1, rfl⟩, own.textual, others.1⟩, Nat.max_le.2 ⟨Nat.max_le.2 ⟨Nat.zero_le _, own.nested⟩, others.2⟩⟩
  exact ⟨⟨rfl, inside.1⟩, Nat.succ_le_succ inside.2⟩

end Node

open Node

theorem Attribute.toNode_simple (a : Attribute) : a.toNode.Simple 1 :=
  simple_ofFields <| by simp [simple_ofText]

theorem Relation.toNode_simple (r : Relation) : r.toNode.Simple 1 :=
  simple_ofFields <| by simp [simple_ofText]

theorem Entity.toNode_simple (e : Entity) : e.toNode.Simple 3 := by
  have attributes : (Node.ofList (e.attributes.map (·.toNode))).Simple 2 :=
    simple_ofList <| List.forall_mem_map.2 fun a _ => a.toNode_simple
  have relations : (Node.ofList (e.relations.map (·.toNode))).Simple 2 :=
    simple_ofList <| List.forall_mem_map.2 fun r _ => r.toNode_simple
  exact simple_ofFields <| by simp [simple_ofText, attributes, relations]

theorem Model.toNode_simple (m : Model) : m.toNode.Simple 5 := by
  have entities : (Node.ofList (m.entities.map (·.toNode))).Simple 4 :=
    simple_ofList <| List.forall_mem_map.2 fun e _ => e.toNode_simple
  exact simple_ofFields <| by cases m.name <;> simp [simple_ofText, entities]

namespace Tree

mutual

/-- Each level of a tree takes a list of children and a dictionary, or the attributes of the last one. -/
theorem toNode_simple : (t : Tree) → t.toNode.Simple (2 * t.depth)
  | ⟨type, attributes, children⟩ => by
    have own : (Node.ofFields (attributes.entries.map fun e => (e.1, .ofText e.2))).Simple 1 :=
      simple_ofFields <| List.forall_mem_map.2 fun e _ => simple_ofText e.2
    have below : (Node.ofList (toNodes children)).Simple (2 * depths children + 1) :=
      simple_ofList (toNodes_simple children)
    have enough : 2 * depths children + 1 + 1 = 2 * depth ⟨type, attributes, children⟩ := by
      rw [depth]
      omega
    rw [← enough, toNode]
    refine simple_ofFields fun f mem => ?_
    rcases List.mem_append.1 mem with mem | mem
    · rcases List.mem_cons.1 mem with rfl | mem
      · exact simple_ofText type
      · split at mem
        · cases mem
        · obtain rfl := List.mem_singleton.1 mem
          exact own.mono (by omega)
    · split at mem
      · cases mem
      · obtain rfl := List.mem_singleton.1 mem
        exact below

theorem toNodes_simple : (ts : List Tree) → ∀ n ∈ toNodes ts, n.Simple (2 * depths ts)
  | [], _, mem => nomatch mem
  | t :: rest, n, mem => by
    rw [toNodes] at mem
    rw [depths]
    rcases List.mem_cons.1 mem with rfl | mem
    · exact (toNode_simple t).mono (by omega)
    · exact (toNodes_simple rest n mem).mono (by omega)

end

end Tree

/-! ### Comparing content -/

deriving instance DecidableEq for Scalar

namespace Node

mutual

def same : Node → Node → Bool
  | .scalar s, .scalar r => s = r
  | .list form items, .list form' items' => form = form' && sameIn items items'
  | .dict tagged entries, .dict tagged' entries' => tagged = tagged' && sameOf entries entries'
  | .broken, .broken => true
  | _, _ => false

def sameIn : List Node → List Node → Bool
  | [], [] => true
  | n :: rest, n' :: rest' => same n n' && sameIn rest rest'
  | _, _ => false

def sameOf : List (Node × Node) → List (Node × Node) → Bool
  | [], [] => true
  | (k, v) :: rest, (k', v') :: rest' => same k k' && same v v' && sameOf rest rest'
  | _, _ => false

end

mutual

theorem eq_of_same : (n : Node) → (n' : Node) → n.same n' = true → n = n'
  | .scalar s, n', eq => by
    cases n' with
    | scalar r => rw [of_decide_eq_true eq]
    | _ => cases eq
  | .list form items, n', eq => by
    cases n' with
    | list form' items' =>
      obtain ⟨form, items⟩ := Bool.and_eq_true_iff.1 eq
      rw [of_decide_eq_true form, eq_of_sameIn _ _ items]
    | _ => cases eq
  | .dict tagged entries, n', eq => by
    cases n' with
    | dict tagged' entries' =>
      obtain ⟨tagged, entries⟩ := Bool.and_eq_true_iff.1 eq
      rw [of_decide_eq_true tagged, eq_of_sameOf _ _ entries]
    | _ => cases eq
  | .broken, n', eq => by
    cases n' with
    | broken => rfl
    | _ => cases eq

theorem eq_of_sameIn : (ns : List Node) → (ns' : List Node) → sameIn ns ns' = true → ns = ns'
  | [], ns', eq => by
    cases ns' with
    | nil => rfl
    | cons => cases eq
  | n :: rest, ns', eq => by
    cases ns' with
    | nil => cases eq
    | cons n' rest' =>
      obtain ⟨first, others⟩ := Bool.and_eq_true_iff.1 eq
      rw [eq_of_same _ _ first, eq_of_sameIn _ _ others]

theorem eq_of_sameOf : (es : List (Node × Node)) → (es' : List (Node × Node)) → sameOf es es' = true → es = es'
  | [], es', eq => by
    cases es' with
    | nil => rfl
    | cons => cases eq
  | (k, v) :: rest, es', eq => by
    cases es' with
    | nil => cases eq
    | cons e' rest' =>
      obtain ⟨pair, others⟩ := Bool.and_eq_true_iff.1 eq
      obtain ⟨key, value⟩ := Bool.and_eq_true_iff.1 pair
      rw [eq_of_same _ _ key, eq_of_same _ _ value, eq_of_sameOf _ _ others]

end

end Node

theorem Reading.eq_of_same {r : Reading} {n : Node} (same : (r.sound && r.root.same n) = true) : r = ⟨n, true⟩ := by
  obtain ⟨root, sound⟩ := r
  obtain ⟨rfl, equal⟩ := Bool.and_eq_true_iff.1 same
  exact congrArg (Reading.mk · true) (Node.eq_of_same root n equal)

/-! ### Texts -/

/-- Content of texts, with at most so many lists and dictionaries inside each other, is what its YAML text is read
as; in particular each text is read as a text. -/
def Yaml.Faithful (levels : Nat) (n : Node) : Prop := n.Simple levels → Yaml.read (Yaml.render n) = ⟨n, true⟩

theorem Model.ofText_yaml {m : Model} {text : String} (kept : Yaml.read text = ⟨m.toNode, true⟩) (origin : String) :
    Model.ofText .yaml origin text = .ok m := by
  unfold Model.ofText Format.decode Reading.decode
  dsimp only
  rw [kept, m.ofNode_toNode]
  rfl

theorem Tree.ofText_yaml {t : Tree} (kept : Yaml.read t.yaml = ⟨t.toNode, true⟩) (origin : String) :
    Tree.ofText .yaml origin t.yaml = .ok t := by
  unfold Tree.ofText Format.decode Reading.decode
  dsimp only
  rw [kept, t.ofNode_toNode]
  rfl

/-- Models, and trees that are not too deep, are what their YAML texts are read as, if YAML keeps content of texts
with up to `Yaml.maxOpen` lists and dictionaries inside each other; two for each level of a tree are enough. -/
theorem yaml_reads_back :
    (∀ (m : Model) (origin : String), Yaml.Faithful Yaml.maxOpen m.toNode → Model.ofText .yaml origin m.yaml = .ok m) ∧
    (∀ (t : Tree) (origin : String), t.depth ≤ 63 → Yaml.Faithful Yaml.maxOpen t.toNode →
      Tree.ofText .yaml origin t.yaml = .ok t) ∧
    (∀ (levels : Nat) (t : Tree) (origin : String), 2 * t.depth ≤ levels → Yaml.Faithful levels t.toNode →
      Tree.ofText .yaml origin t.yaml = .ok t) ∧
    ∀ (t : Tree) (origin : String), t.depth ≤ ({} : LoadSettings).maxDepth → Yaml.Faithful Yaml.maxOpen t.toNode →
      Tree.ofText .yaml origin t.yaml = .ok t := by
  have trees : ∀ (levels : Nat) (t : Tree) (origin : String), 2 * t.depth ≤ levels → Yaml.Faithful levels t.toNode →
      Tree.ofText .yaml origin t.yaml = .ok t := fun levels t origin room faithful =>
    Tree.ofText_yaml (faithful (t.toNode_simple.mono room)) origin
  have room : 2 * 63 ≤ Yaml.maxOpen := by decide
  have deepest : ({} : LoadSettings).maxDepth ≤ 63 := by decide
  refine ⟨fun m origin faithful => ?_, fun t origin shallow => ?_, trees, fun t origin shallow => ?_⟩
  · exact Model.ofText_yaml (faithful (m.toNode_simple.mono (by decide))) origin
  · exact trees Yaml.maxOpen t origin (Nat.le_trans (Nat.mul_le_mul_left 2 shallow) room)
  · have shallow : t.depth ≤ 63 := Nat.le_trans shallow deepest
    exact trees Yaml.maxOpen t origin (Nat.le_trans (Nat.mul_le_mul_left 2 shallow) room)

namespace Sample

/-- A model whose texts look like other values. -/
def switches : Model := ⟨some "null", [⟨⟨"On", rfl⟩, [⟨⟨"5", rfl⟩, .real⟩], [⟨⟨"to", rfl⟩, ⟨"On", rfl⟩⟩]⟩]⟩

def lookalike : Tree := ⟨"true", .ofList [("", "null"), ("k", "5")], [⟨"", .empty, []⟩]⟩

theorem switches_yaml : switches.yaml = "name: 'null'\nentities:\n- name: On\n  attributes:\n" ++
    "  - name: '5'\n    type: real\n  relations:\n  - name: to\n    target: On\n" := by decide +kernel

theorem lookalike_yaml : lookalike.yaml = "type: 'true'\nattributes:\n  '': 'null'\n  k: '5'\n" ++
    "children:\n- type: ''\n" := by decide +kernel

end Sample

theorem yaml_reads_back_lookalike : Model.ofText .yaml "m.yaml" Sample.switches.yaml = .ok Sample.switches ∧
    Tree.ofText .yaml "t.yaml" Sample.lookalike.yaml = .ok Sample.lookalike := by
  have model : Yaml.Faithful Yaml.maxOpen Sample.switches.toNode := fun _ => by
    rw [← Model.yaml, Sample.switches_yaml]
    exact Reading.eq_of_same (by decide +kernel)
  have tree : Yaml.Faithful Yaml.maxOpen Sample.lookalike.toNode := fun _ => by
    rw [← Tree.yaml, Sample.lookalike_yaml]
    exact Reading.eq_of_same (by decide +kernel)
  exact ⟨yaml_reads_back.1 _ _ model, yaml_reads_back.2.1 _ _ (by decide) tree⟩

end TreeStore
