import TreeStore.Proofs.Outcome
import TreeStore.Proofs.TextMap
import TreeStore.Tree.Document

/-! Models and trees as document content: what is written of one is read as it. -/

namespace TreeStore

/-! ### Records -/

namespace Record

variable {α : Type} {fields : List Field} {step : α → String → Node → Except Fault α}

theorem fieldOf_eq_ok {written : List String} {key : Node} {name : String} : fieldOf fields written key = .ok name ↔
    key.readText = .ok name ∧ name ∈ fields.map (·.name) ∧ name ∉ written := by
  unfold fieldOf
  rw [bind_eq_ok]
  constructor
  · rintro ⟨own, read, checked⟩
    by_cases known : own ∈ fields.map (·.name)
    · by_cases old : own ∈ written
      · rw [if_neg (by simpa using known), if_pos (by simpa using old)] at checked
        cases checked
      · rw [if_neg (by simpa using known), if_neg (by simpa using old)] at checked
        cases checked
        exact ⟨read, known, old⟩
    · rw [if_pos (by simpa using known)] at checked
      cases checked
  · rintro ⟨read, known, new⟩
    refine ⟨name, read, ?_⟩
    rw [if_neg (by simpa using known), if_neg (by simpa using new)]
    rfl

theorem fieldOf_ofText {written : List String} {name : String} (known : name ∈ fields.map (·.name))
    (new : name ∉ written) : fieldOf fields written (.ofText name) = .ok name :=
  fieldOf_eq_ok.2 ⟨rfl, known, new⟩

theorem checkMissing_ok {written : List String} (complete : ∀ f ∈ fields, f.required = true → f.name ∈ written) :
    checkMissing fields written = .ok () := by
  have none : (fields.find? fun f => f.required && !written.contains f.name) = none := by
    refine List.find?_eq_none.2 fun f mem => ?_
    cases required : f.required with
    | false => simp
    | true => simpa using complete f mem required
  rw [checkMissing, none]

theorem readEntries_ofFields (entries : List (String × Node)) {written : List String} (acc : α)
    (known : ∀ e ∈ entries, e.1 ∈ fields.map (·.name)) (distinct : (entries.map (·.1) ++ written).Nodup)
    (complete : ∀ f ∈ fields, f.required = true → f.name ∈ entries.map (·.1) ++ written) :
    readEntries fields step written acc (entries.map fun e => (Node.ofText e.1, e.2)) =
      entries.foldlM (fun acc e => step acc e.1 e.2) acc := by
  induction entries generalizing written acc with
  | nil =>
    have nothing : checkMissing fields written = .ok () := checkMissing_ok complete
    rw [List.map_nil, readEntries, nothing]
    rfl
  | cons e rest ih =>
    obtain ⟨fresh, others⟩ := List.nodup_cons.1 distinct
    have new : e.1 ∉ written := fun mem => fresh (List.mem_append_right _ mem)
    have first : fieldOf fields written (.ofText e.1) = .ok e.1 := fieldOf_ofText (known e List.mem_cons_self) new
    have later : (rest.map (·.1) ++ e.1 :: written).Nodup := List.nodup_middle.2 distinct
    rw [List.map_cons, readEntries, first, List.foldlM_cons, ok_bind]
    refine congrArg _ (funext fun acc => ih acc (fun x mem => known x (List.mem_cons_of_mem _ mem)) later ?_)
    intro f mem required
    have found := complete f mem required
    simp only [List.map_cons, List.cons_append, List.mem_cons, List.mem_append] at found ⊢
    exact or_left_comm.1 found

/-- A dictionary with distinct keys that name fields, all the required ones among them, is read entry by entry. -/
theorem read_ofFields {entries : List (String × Node)} (start : α)
    (known : ∀ e ∈ entries, e.1 ∈ fields.map (·.name)) (distinct : (entries.map (·.1)).Nodup)
    (complete : ∀ f ∈ fields, f.required = true → f.name ∈ entries.map (·.1)) :
    read fields step start (.ofFields entries) = entries.foldlM (fun acc e => step acc e.1 e.2) start :=
  readEntries_ofFields entries start known (by simpa using distinct) (by simpa using complete)

end Record

/-! ### Models -/

theorem Name.ofText?_text (n : Name) : Name.ofText? n.text = some n := dif_pos n.notBlank

theorem Name.ofText?_eq_some {s : String} {n : Name} : Name.ofText? s = some n ↔ s = n.text := by
  constructor
  · intro named
    unfold Name.ofText? at named
    split at named <;> cases named
    rfl
  · rintro rfl
    exact n.ofText?_text

/-- A kind is written as one of the words for it. -/
theorem ScalarKind.parse_word (k : ScalarKind) : ScalarKind.parse k.word = k := by
  cases k <;> decide +kernel

theorem Node.readName_ofText (kind : NameKind) (n : Name) : (Node.ofText n.text).readName kind = .ok n := by
  unfold Node.readName
  rw [show (Node.ofText n.text).readText = .ok n.text from rfl, ok_bind, n.ofText?_text]
  rfl

theorem Node.readEach_ofList {α : Type} {read : Node → Except Fault α} {write : α → Node} (xs : List α)
    (each : ∀ x ∈ xs, read (write x) = .ok x) : (Node.ofList (xs.map write)).readEach read = .ok xs := by
  have all : (xs.map write).mapM read = .ok xs := by
    rw [mapM_eq_ok, List.forall₂_map_left_iff, List.forall₂_same]
    exact each
  exact all

theorem Attribute.ofNode_toNode (a : Attribute) : Attribute.ofNode a.toNode = .ok a := by
  have kind : (Node.ofText a.kind.word).readText = .ok a.kind.word := rfl
  unfold Attribute.ofNode Attribute.toNode
  rw [Record.read_ofFields _ (by simp [fields]) (by simp) (by simp [fields])]
  simp only [List.foldlM_cons, List.foldlM_nil, Node.readName_ofText, kind, a.kind.parse_word, ok_bind, pure_bind]
  rfl

theorem Relation.ofNode_toNode (r : Relation) : Relation.ofNode r.toNode = .ok r := by
  unfold Relation.ofNode Relation.toNode
  rw [Record.read_ofFields _ (by simp [fields]) (by simp) (by simp [fields])]
  simp only [List.foldlM_cons, List.foldlM_nil, Node.readName_ofText, ok_bind, pure_bind]
  rfl

theorem Entity.ofNode_toNode (e : Entity) : Entity.ofNode e.toNode = .ok e := by
  have attributes := Node.readEach_ofList e.attributes fun a _ => a.ofNode_toNode
  have relations := Node.readEach_ofList e.relations fun r _ => r.ofNode_toNode
  unfold Entity.ofNode Entity.toNode
  rw [Record.read_ofFields _ (by simp [fields]) (by simp) (by simp [fields])]
  simp only [List.foldlM_cons, List.foldlM_nil, Node.readName_ofText, attributes, relations, ok_bind, pure_bind]
  rfl

theorem Model.ofNode_toNode (m : Model) : Model.ofNode m.toNode = .ok m := by
  obtain ⟨name, declared⟩ := m
  have entities := Node.readEach_ofList declared fun e _ => e.ofNode_toNode
  unfold Model.ofNode Model.toNode
  cases name with
  | none =>
    rw [Record.read_ofFields _ (by simp [fields]) (by simp) (by simp [fields])]
    simp only [Option.map_none, Option.toList_none, List.nil_append, List.foldlM_cons, List.foldlM_nil, entities,
      ok_bind]
    rfl
  | some name =>
    -- also a name such as "null" is a text, which is there
    have there : Node.readOptional Node.readText (.ofText name) = .ok (some name) := rfl
    rw [Record.read_ofFields _ (by simp [fields]) (by simp) (by simp [fields])]
    simp only [Option.map_some, Option.toList_some, List.singleton_append, List.foldlM_cons, List.foldlM_nil, there,
      entities, ok_bind, pure_bind]
    rfl

/-! ### Trees -/

namespace Tree

theorem readValues_texts (es : List (String × String)) (acc : TextMap (Option String)) :
    readValues acc (es.map fun e => (.ofText e.1, .ofText e.2)) =
      .ok ((es.map fun e => (e.1, some e.2)).foldl (fun m e => m.insert e.1 e.2) acc) := by
  induction es generalizing acc with
  | nil => rfl
  | cons e rest ih =>
    have key : (Node.ofText e.1).readText = .ok e.1 := rfl
    have value : (Node.ofText e.2).readOptional readValue = .ok (some e.2) := rfl
    rw [List.map_cons, readValues, key, value]
    exact ih _

theorem readAttributes_texts (m : TextMap String) :
    readAttributes (.ofFields (m.entries.map fun e => (e.1, .ofText e.2))) = .ok m := by
  have ordered : (m.entries.map fun e => (e.1, some e.2)).Pairwise fun a b => a.1 < b.1 :=
    m.ordered.map _ fun _ _ lt => lt
  have values := readValues_texts m.entries .empty
  rw [← TextMap.ofList, TextMap.ofList_ordered ordered] at values
  have kept : (m.entries.map fun e => (e.1, some e.2)).filterMap (fun e => (id e.2).map (e.1, ·)) = m.entries := by
    simp [List.filterMap_map]
  have read : (Node.ofFields (m.entries.map fun e => (e.1, .ofText e.2))).readDict =
      .ok (m.entries.map fun e => (.ofText e.1, .ofText e.2)) := by
    rw [Node.ofFields, List.map_map]
    rfl
  unfold readAttributes
  rw [read, ok_bind, values, ok_bind, TextMap.filterMap, kept, TextMap.ofList_ordered m.ordered]
  rfl

section Entries

variable (draft : Draft) (rest : List (Node × Node)) {written : List String}

theorem ofEntries_type (type : String) (new : "type" ∉ written) :
    ofEntries written draft ((.ofText "type", .ofText type) :: rest) =
      ofEntries ("type" :: written) { draft with type := some type } rest := by
  have field : Record.fieldOf fields written (.ofText "type") = .ok "type" :=
    Record.fieldOf_ofText (by simp [fields]) new
  rw [ofEntries, field]
  rfl

theorem ofEntries_attributes (m : TextMap String) (new : "attributes" ∉ written) :
    ofEntries written draft
        ((.ofText "attributes", .ofFields (m.entries.map fun e => (e.1, .ofText e.2))) :: rest) =
      ofEntries ("attributes" :: written) { draft with attributes := m } rest := by
  have field : Record.fieldOf fields written (.ofText "attributes") = .ok "attributes" :=
    Record.fieldOf_ofText (by simp [fields]) new
  rw [ofEntries, field]
  change (do ofEntries ("attributes" :: written) { draft with attributes := ← readAttributes _ } rest) = _
  rw [readAttributes_texts, ok_bind]

theorem ofEntries_children {n : Node} {children : List Tree} (below : childrenOf n = .ok children)
    (new : "children" ∉ written) : ofEntries written draft ((.ofText "children", n) :: rest) =
      ofEntries ("children" :: written) { draft with children } rest := by
  have field : Record.fieldOf fields written (.ofText "children") = .ok "children" :=
    Record.fieldOf_ofText (by simp [fields]) new
  rw [ofEntries, field]
  change (do ofEntries ("children" :: written) { draft with children := ← childrenOf n } rest) = _
  rw [below, ok_bind]

theorem ofEntries_nil (typed : "type" ∈ written) : ofEntries written draft [] = draft.complete := by
  have nothing : Record.checkMissing fields written = .ok () :=
    Record.checkMissing_ok (by simpa [fields] using typed)
  rw [ofEntries, nothing]
  rfl

/-- A tree is read as it is once its children are; attributes and children that are left out are none. -/
theorem ofNode_toNode_of (type : String) (attributes : TextMap String) (children : List Tree)
    (below : ofNodes (toNodes children) = .ok children) :
    ofNode (toNode ⟨type, attributes, children⟩) = .ok ⟨type, attributes, children⟩ := by
  have list : childrenOf (.ofList (toNodes children)) = .ok children := below
  rw [toNode, Node.ofFields, ofNode, List.cons_append, List.map_cons, ofEntries_type _ _ _ (by simp)]
  cases bare : attributes.isEmpty with
  | true =>
    obtain rfl := TextMap.eq_empty bare
    cases leaf : children.isEmpty with
    | true =>
      obtain rfl := List.isEmpty_iff.1 leaf
      rfl
    | false =>
      simp only [if_true, Bool.false_eq_true, if_false, List.nil_append, List.map_cons, List.map_nil]
      rw [ofEntries_children _ _ list (by simp), ofEntries_nil _ (by simp)]
      rfl
  | false =>
    cases leaf : children.isEmpty with
    | true =>
      obtain rfl := List.isEmpty_iff.1 leaf
      simp only [if_true, Bool.false_eq_true, if_false, List.append_nil, List.map_cons, List.map_nil]
      rw [ofEntries_attributes _ _ _ (by simp), ofEntries_nil _ (by simp)]
      rfl
    | false =>
      simp only [Bool.false_eq_true, if_false, List.singleton_append, List.map_cons, List.map_nil]
      rw [ofEntries_attributes _ _ _ (by simp), ofEntries_children _ _ list (by simp), ofEntries_nil _ (by simp)]
      rfl

end Entries

mutual

theorem ofNode_toNode : (t : Tree) → ofNode t.toNode = .ok t
  | ⟨type, attributes, children⟩ => ofNode_toNode_of type attributes children (ofNodes_toNodes children)

theorem ofNodes_toNodes : (ts : List Tree) → ofNodes (toNodes ts) = .ok ts
  | [] => rfl
  | t :: rest => by
    rw [toNodes, ofNodes, ofNode_toNode t, ofNodes_toNodes rest]
    rfl

end

end Tree

end TreeStore
