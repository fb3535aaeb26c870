import TreeStore.Proofs.Document.ReadBack
import TreeStore.Proofs.Outcome
import TreeStore.Proofs.TextMap

/-! The places of a document that holds an instance tree: what is written for an attribute there is read as what the
node of the tree at that place has for it. -/

namespace TreeStore

/-! ### Places of a document -/

namespace Node

def isText (key : String) : Node → Bool
  | .scalar s => s.text = some key
  | _ => false

def valuesOf (key : String) (entries : List (Node × Node)) : List Node :=
  (entries.filter (·.1.isText key)).map (·.2)

/-- The values that are written for a field of a record, in a dictionary or by position. -/
def fieldValues (name : String) (place : Nat) : Node → List Node
  | .dict _ entries => valuesOf name entries
  | .list .positional items => items[place]?.toList
  | _ => []

def entries : Node → List (Node × Node)
  | .dict _ entries => entries
  | _ => []

def items : Node → List Node
  | .list _ items => items
  | _ => []

def attributeEntries (n : Node) : List (Node × Node) := (n.fieldValues "attributes" 1).flatMap entries

def childNodes (n : Node) : List Node := (n.fieldValues "children" 2).flatMap items

/-- The instance node at a place, given by the numbers of children on the way down. -/
def place? (n : Node) : List Nat → Option Node
  | [] => some n
  | i :: path => n.childNodes[i]?.bind (place? · path)

theorem isText_iff {k : Node} {name key : String} (read : k.readText = .ok name) :
    k.isText key = true ↔ name = key := by
  unfold readText at read
  split at read
  · cases read
    simp [isText]
  · cases read

theorem readDict_eq {n : Node} {es : List (Node × Node)} (read : n.readDict = .ok es) : n.entries = es := by
  unfold readDict at read
  split at read
  · cases read
    rfl
  · split at read <;> cases read
    rfl
  · cases read

theorem valuesOf_cons {key name : String} {k v : Node} {rest : List (Node × Node)} (read : k.readText = .ok name) :
    valuesOf key ((k, v) :: rest) = if name = key then v :: valuesOf key rest else valuesOf key rest := by
  unfold valuesOf
  rw [List.filter_cons]
  simp only [isText_iff read]
  split <;> rfl

end Node

namespace Tree

def place? (t : Tree) : List Nat → Option Tree
  | [] => some t
  | i :: path => t.children[i]?.bind (place? · path)

/-! ### Attributes of a node -/

theorem readValues_keeps {es : List (Node × Node)} {acc raw : TextMap (Option String)} {key : String}
    (read : readValues acc es = .ok raw) (none : Node.valuesOf key es = []) : raw.get? key = acc.get? key := by
  induction es generalizing acc with
  | nil =>
    cases read
    rfl
  | cons e rest ih =>
    simp only [readValues, bind_eq_ok] at read
    obtain ⟨name, named, o, _, read⟩ := read
    rw [Node.valuesOf_cons named] at none
    split at none
    · cases none
    · next other => rw [ih read none, TextMap.get?_insert, if_neg (Ne.symm other)]

/-- Of the values that are written for a key the last one is read and stays. -/
theorem readValues_last {es : List (Node × Node)} {acc raw : TextMap (Option String)} {key : String} {v : Node}
    (read : readValues acc es = .ok raw) (last : (Node.valuesOf key es).getLast? = some v) :
    ∃ o, v.readOptional readValue = .ok o ∧ raw.get? key = some o := by
  induction es generalizing acc with
  | nil => cases last
  | cons e rest ih =>
    simp only [readValues, bind_eq_ok] at read
    obtain ⟨name, named, o, value, read⟩ := read
    rw [Node.valuesOf_cons named] at last
    split at last
    · next own =>
      cases later : Node.valuesOf key rest with
      | nil =>
        rw [later] at last
        cases last
        exact ⟨o, value, by rw [readValues_keeps read later, TextMap.get?_insert, if_pos own.symm]⟩
      | cons w ws =>
        rw [later, List.getLast?_cons_cons, ← later] at last
        exact ih read last
    · exact ih read last

theorem readAttributes_last {n v : Node} {m : TextMap String} {key : String} (read : readAttributes n = .ok m)
    (last : (Node.valuesOf key n.entries).getLast? = some v) :
    ∃ o, v.readOptional readValue = .ok o ∧ m.get? key = o := by
  simp only [readAttributes, bind_eq_ok] at read
  obtain ⟨es, entries, raw, read, ⟨⟩⟩ := read
  rw [Node.readDict_eq entries] at last
  obtain ⟨o, value, there⟩ := readValues_last read last
  exact ⟨o, value, by rw [TextMap.get?_filterMap, there]; rfl⟩

/-! ### Fields of a node -/

inductive Fills (draft : Draft) (v : Node) : String → Draft → Prop
  | type {s : String} : Fills draft v "type" { draft with type := some s }
  | attributes {m : TextMap String} (read : readAttributes v = .ok m) :
    Fills draft v "attributes" { draft with attributes := m }
  | children {ts : List Tree} (read : childrenOf v = .ok ts) : Fills draft v "children" { draft with children := ts }

theorem ofEntries_cons {written : List String} {draft : Draft} {k v : Node} {rest : List (Node × Node)} {t : Tree}
    (read : ofEntries written draft ((k, v) :: rest) = .ok t) : ∃ name draft', k.readText = .ok name ∧
      name ∉ written ∧ Fills draft v name draft' ∧ ofEntries (name :: written) draft' rest = .ok t := by
  rw [ofEntries, bind_eq_ok] at read
  obtain ⟨name, field, read⟩ := read
  obtain ⟨named, known, new⟩ := Record.fieldOf_eq_ok.1 field
  simp only [fields, List.map_cons, List.map_nil, List.mem_cons, List.not_mem_nil, or_false] at known
  rcases known with rfl | rfl | rfl
  · obtain ⟨s, _, read⟩ := bind_eq_ok.1 read
    exact ⟨_, _, named, new, .type, read⟩
  · obtain ⟨m, value, read⟩ := bind_eq_ok.1 read
    exact ⟨_, _, named, new, .attributes value, read⟩
  · obtain ⟨ts, value, read⟩ := bind_eq_ok.1 read
    exact ⟨_, _, named, new, .children value, read⟩

/-- A field that has been written is not written again. -/
theorem ofEntries_once {written : List String} {draft : Draft} {es : List (Node × Node)} {t : Tree} {name : String}
    (read : ofEntries written draft es = .ok t) (old : name ∈ written) : Node.valuesOf name es = [] := by
  induction es generalizing written draft with
  | nil => rfl
  | cons e rest ih =>
    obtain ⟨own, draft', named, new, _, read⟩ := ofEntries_cons read
    rw [Node.valuesOf_cons named, if_neg fun same : own = name => new (same ▸ old)]
    exact ih read (List.mem_cons_of_mem _ old)

/-- What is written for a field, if anything, is read as what a node has there. -/
def Written {α : Type} (values : List Node) (read : Node → Except Fault α) (default x : α) : Prop :=
  values = [] ∧ x = default ∨ ∃ v, values = [v] ∧ read v = .ok x

theorem ofEntries_written {written : List String} {draft : Draft} {es : List (Node × Node)} {t : Tree}
    (read : ofEntries written draft es = .ok t) :
    Written (Node.valuesOf "attributes" es) readAttributes draft.attributes t.attributes ∧
      Written (Node.valuesOf "children" es) childrenOf draft.children t.children := by
  induction es generalizing written draft with
  | nil =>
    rw [ofEntries, seq_eq_ok, Draft.complete] at read
    obtain ⟨_, read⟩ := read
    split at read <;> cases read
    exact ⟨.inl ⟨rfl, rfl⟩, .inl ⟨rfl, rfl⟩⟩
  | cons e rest ih =>
    obtain ⟨name, draft', named, _, fills, read⟩ := ofEntries_cons read
    obtain ⟨attributes, children⟩ := ih read
    rw [Node.valuesOf_cons named, Node.valuesOf_cons named]
    cases fills with
    | type => exact ⟨attributes, children⟩
    | attributes value =>
      have none := ofEntries_once read List.mem_cons_self
      rw [none] at attributes
      obtain ⟨_, same⟩ | ⟨_, ⟨⟩, _⟩ := attributes
      exact ⟨.inr ⟨e.2, by rw [if_pos rfl, none], same ▸ value⟩, children⟩
    | children value =>
      have none := ofEntries_once read List.mem_cons_self
      rw [none] at children
      obtain ⟨_, same⟩ | ⟨_, ⟨⟩, _⟩ := children
      exact ⟨attributes, .inr ⟨e.2, by rw [if_pos rfl, none], same ▸ value⟩⟩

theorem ofItems_written {items : List Node} {t : Tree} (read : ofItems items = .ok t) :
    Written items[1]?.toList readAttributes .empty t.attributes ∧
      Written items[2]?.toList childrenOf [] t.children := by
  match items with
  | [] => cases read
  | [n] =>
    simp only [ofItems, bind_eq_ok] at read
    obtain ⟨_, _, ⟨⟩⟩ := read
    exact ⟨.inl ⟨rfl, rfl⟩, .inl ⟨rfl, rfl⟩⟩
  | [n, as] =>
    simp only [ofItems, bind_eq_ok] at read
    obtain ⟨_, _, _, attributes, ⟨⟩⟩ := read
    exact ⟨.inr ⟨as, rfl, attributes⟩, .inl ⟨rfl, rfl⟩⟩
  | [n, as, cs] =>
    simp only [ofItems, bind_eq_ok] at read
    obtain ⟨_, _, _, attributes, _, children, ⟨⟩⟩ := read
    exact ⟨.inr ⟨as, rfl, attributes⟩, .inr ⟨cs, rfl, children⟩⟩
  | _ :: _ :: _ :: _ :: _ =>
    simp only [ofItems, bind_eq_ok] at read
    obtain ⟨_, _, _, _, _, _, ⟨⟩⟩ := read

theorem ofNode_written {n : Node} {t : Tree} (read : ofNode n = .ok t) :
    Written (n.fieldValues "attributes" 1) readAttributes .empty t.attributes ∧
      Written (n.fieldValues "children" 2) childrenOf [] t.children := by
  cases n with
  | dict tagged es =>
    rw [ofNode] at read
    exact ofEntries_written read
  | list form items =>
    cases form with
    | positional =>
      rw [ofNode] at read
      exact ofItems_written read
    | _ => cases read
  | scalar s =>
    rw [ofNode] at read
    split at read <;> cases read
  | broken => cases read

/-! ### Nodes at their places -/

/-- What is written last for an attribute is read as what the node has for it. -/
theorem ofNode_attribute {n v : Node} {t : Tree} {key : String} (read : ofNode n = .ok t)
    (last : (Node.valuesOf key n.attributeEntries).getLast? = some v) :
    ∃ o, v.readOptional readValue = .ok o ∧ t.attributes.get? key = o := by
  obtain ⟨none, _⟩ | ⟨as, written, attributes⟩ := (ofNode_written read).1
  · rw [Node.attributeEntries, none] at last
    cases last
  · rw [Node.attributeEntries, written, List.flatMap_singleton] at last
    exact readAttributes_last attributes last

theorem ofNodes_eq_ok {ns : List Node} {ts : List Tree} :
    ofNodes ns = .ok ts ↔ List.Forall₂ (fun n t => ofNode n = .ok t) ns ts := by
  induction ns generalizing ts with
  | nil => exact ⟨fun read => by cases read; exact .nil, fun all => by cases all; rfl⟩
  | cons n rest ih =>
    simp only [ofNodes, bind_eq_ok, ih]
    constructor
    · rintro ⟨t, first, ts, others, ⟨⟩⟩
      exact .cons first others
    · rintro (_ | ⟨first, others⟩)
      exact ⟨_, first, _, others, rfl⟩

theorem ofNode_children {n : Node} {t : Tree} (read : ofNode n = .ok t) :
    List.Forall₂ (fun n t => ofNode n = .ok t) n.childNodes t.children := by
  obtain ⟨none, leaf⟩ | ⟨cs, written, children⟩ := (ofNode_written read).2
  · rw [Node.childNodes, none, leaf]
    exact .nil
  · rw [Node.childNodes, written, List.flatMap_singleton]
    unfold childrenOf at children
    split at children
    · exact ofNodes_eq_ok.1 children
    · split at children
      · rw [← Except.ok.inj children]
        exact .nil
      · cases children
    · cases children
    · cases children

/-- The node of a tree at a place of the document is what is written there. -/
theorem ofNode_place {n c : Node} {t : Tree} {path : List Nat} (read : ofNode n = .ok t)
    (there : n.place? path = some c) : ∃ u, t.place? path = some u ∧ ofNode c = .ok u := by
  induction path generalizing n t with
  | nil =>
    cases there
    exact ⟨t, rfl, read⟩
  | cons i rest ih =>
    obtain ⟨child, at_, below⟩ := Option.bind_eq_some_iff.1 there
    have all := ofNode_children read
    obtain ⟨inside, rfl⟩ := List.getElem?_eq_some_iff.1 at_
    have inside' : i < t.children.length := all.length_eq ▸ inside
    obtain ⟨u, found, same⟩ := ih (all.get inside inside') below
    exact ⟨u, by rw [place?, List.getElem?_eq_getElem inside']; exact found, same⟩

end Tree

end TreeStore
