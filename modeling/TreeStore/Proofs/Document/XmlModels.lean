import TreeStore.Proofs.Document.RoundTrip
import TreeStore.Proofs.Kinds
import TreeStore.Proofs.Outcome
import TreeStore.Proofs.Xml.Nesting

/-! Meta-models in XML mean what they list: the elements for entities below the root that are not inside each other,
with the elements for attributes and relations that are their children. Whatever else there is changes nothing. -/

namespace TreeStore.Xml.Element

/-! ### What an element tree lists -/

/-- The first attribute with a name, in whatever case it is written, has a value. -/
def Gives (e : Element) (key value : String) : Prop :=
  ∃ before written after, e.attributes = before ++ (written, value) :: after ∧
    Text.sameIgnoringCase written key = true ∧ ∀ a ∈ before, Text.sameIgnoringCase a.1 key = false

def Names (e : Element) (key : String) : Prop := ∃ value, e.Gives key value ∧ Text.isBlank value = false

def tagged (e : Element) (tag : String) : Bool := Text.sameIgnoringCase e.name tag

mutual

/-- An element and all that is inside it, in the order of the document, each with what it is inside of. -/
def descend (above : List Element) : Element → List (List Element × Element)
  | ⟨name, attributes, children⟩ =>
    (above, ⟨name, attributes, children⟩) :: descendAll (⟨name, attributes, children⟩ :: above) children

def descendAll (above : List Element) : List Element → List (List Element × Element)
  | [] => []
  | e :: rest => descend above e ++ descendAll above rest

end

/-- Of elements with what they are inside of, those for entities that are not inside another one. -/
def outer (xs : List (List Element × Element)) : List Element :=
  (xs.filter fun x => x.2.isEntity && !x.1.any isEntity).map (·.2)

/-- The elements for entities strictly below a root that are not inside another one. -/
def outermost (root : Element) : List Element := outer (descendAll [] root.children)

structure WellNamed (e : Element) : Prop where
  own : e.Names "Name"
  attributes : ∀ c ∈ e.children, c.tagged "attribute" = true → c.Names "Name"
  relations : ∀ c ∈ e.children, c.tagged "relation" = true → c.Names "Name" ∧ c.Names "target"

/-- A kind is given by a word for it. What is no word for a kind, or is missing, gives text. -/
structure ListsAttribute (e : Element) (a : Attribute) : Prop where
  name : e.Gives "Name" a.name.text
  kind : (∃ s, e.Gives "type" s ∧ a.kind.Spelled s) ∨
    a.kind = .text ∧ ∀ s, e.Gives "type" s → ∀ k : ScalarKind, ¬ k.Spelled s

structure ListsRelation (e : Element) (r : Relation) : Prop where
  name : e.Gives "Name" r.name.text
  target : e.Gives "target" r.target.text

structure ListsEntity (e : Element) (x : Entity) : Prop where
  name : e.Gives "Name" x.name.text
  attributes : List.Forall₂ ListsAttribute (e.children.filter (·.tagged "attribute")) x.attributes
  relations : List.Forall₂ ListsRelation (e.children.filter (·.tagged "relation")) x.relations

structure ListsModel (root : Element) (m : Model) : Prop where
  name : ∀ s, m.name = some s ↔ root.Gives "Name" s
  entities : List.Forall₂ ListsEntity root.outermost m.entities
  some : m.entities ≠ []

/-! ### Names and members -/

theorem attribute?_eq_some {e : Element} {key value : String} : e.attribute? key = some value ↔ e.Gives key value := by
  unfold attribute? Gives
  simp only [Option.map_eq_some_iff, List.find?_eq_some_iff_append]
  constructor
  · rintro ⟨⟨written, _⟩, ⟨same, before, after, split, others⟩, rfl⟩
    exact ⟨before, written, after, split, same, fun a mem => by simpa using others a mem⟩
  · rintro ⟨before, written, after, split, same, others⟩
    exact ⟨(written, value), ⟨same, before, after, split, fun a mem => by simp [others a mem]⟩, rfl⟩

theorem named_iff {e : Element} {key : String} {n : Name} :
    (e.attribute? key).bind Name.ofText? = some n ↔ e.Gives key n.text := by
  simp only [Option.bind_eq_some_iff, attribute?_eq_some, Name.ofText?_eq_some, exists_eq_right]

theorem names_iff {e : Element} {key : String} : e.Names key ↔ ∃ n : Name, e.Gives key n.text :=
  ⟨fun ⟨s, gives, solid⟩ => ⟨⟨s, solid⟩, gives⟩, fun ⟨n, gives⟩ => ⟨n.text, gives, n.notBlank⟩⟩

theorem requireName_eq_ok {e : Element} {n : Name} : e.requireName = .ok n ↔ e.Gives "Name" n.text := by
  rw [← named_iff]
  unfold requireName
  cases (e.attribute? "Name").bind Name.ofText? <;> simp

theorem toAttribute_eq_ok {e : Element} {a : Attribute} : e.toAttribute = .ok a ↔ ListsAttribute e a := by
  have kind : ScalarKind.parse ((e.attribute? "type").getD "") = a.kind ↔
      (∃ s, e.Gives "type" s ∧ a.kind.Spelled s) ∨
        a.kind = .text ∧ ∀ s, e.Gives "type" s → ∀ k : ScalarKind, ¬ k.Spelled s := by
    simp only [← attribute?_eq_some]
    cases e.attribute? "type" with
    | none => simp [show ScalarKind.parse "" = .text by decide +kernel, eq_comm]
    | some s => simp [ScalarKind.parse_eq_iff]
  unfold toAttribute
  generalize ScalarKind.parse ((e.attribute? "type").getD "") = k at kind
  simp only [bind_eq_ok, requireName_eq_ok]
  constructor
  · rintro ⟨n, name, ⟨⟩⟩
    exact ⟨name, kind.1 rfl⟩
  · rintro ⟨name, given⟩
    exact ⟨a.name, name, by rw [kind.2 given]; rfl⟩

theorem toRelation_eq_ok {entity : Name} {e : Element} {r : Relation} :
    e.toRelation entity = .ok r ↔ ListsRelation e r := by
  unfold toRelation
  cases target : (e.attribute? "target").bind Name.ofText? with
  | none =>
    refine ⟨(nomatch ·), fun lists => ?_⟩
    cases target.symm.trans (named_iff.2 lists.target)
  | some t =>
    simp only [bind_eq_ok, requireName_eq_ok]
    constructor
    · rintro ⟨n, name, ⟨⟩⟩
      exact ⟨name, named_iff.1 target⟩
    · intro lists
      obtain rfl : t = r.target := Option.some.inj (target.symm.trans (named_iff.2 lists.target))
      exact ⟨r.name, lists.name, rfl⟩

theorem tagged_once {e : Element} (tagged : e.tagged "attribute" = true) : e.tagged "relation" = false := by
  have same : Text.asciiLower e.name = Text.asciiLower "attribute" := Text.sameIgnoringCase_iff.1 tagged
  cases other : e.tagged "relation" with
  | false => rfl
  | true => exact absurd (same.symm.trans (Text.sameIgnoringCase_iff.1 other)) (by decide +kernel)

section Members

variable {e : Element} {x y : Entity}

theorem addMember_attribute (own : e.tagged "attribute" = true) : addMember x e = .ok y ↔
    ∃ a, ListsAttribute e a ∧ y = { x with attributes := x.attributes ++ [a] } := by
  have own : Text.sameIgnoringCase e.name "attribute" = true := own
  unfold addMember
  rw [if_pos own, bind_eq_ok]
  simp only [toAttribute_eq_ok]
  exact exists_congr fun a => and_congr_right fun _ => ⟨fun eq => (Except.ok.inj eq).symm, fun eq => eq ▸ rfl⟩

theorem addMember_relation (own : e.tagged "relation" = true) (other : e.tagged "attribute" = false) :
    addMember x e = .ok y ↔ ∃ r, ListsRelation e r ∧ y = { x with relations := x.relations ++ [r] } := by
  have own : Text.sameIgnoringCase e.name "relation" = true := own
  unfold addMember
  rw [if_neg (Bool.not_eq_true _ ▸ other), if_pos own, bind_eq_ok]
  simp only [toRelation_eq_ok]
  exact exists_congr fun r => and_congr_right fun _ => ⟨fun eq => (Except.ok.inj eq).symm, fun eq => eq ▸ rfl⟩

theorem addMember_foreign (other : e.tagged "attribute" = false) (other' : e.tagged "relation" = false) :
    addMember x e = .ok x := by
  unfold addMember
  rw [if_neg (Bool.not_eq_true _ ▸ other), if_neg (Bool.not_eq_true _ ▸ other')]
  rfl

theorem foldlM_addMember {es : List Element} : es.foldlM addMember x = .ok y ↔
    ∃ as rs, List.Forall₂ ListsAttribute (es.filter (·.tagged "attribute")) as ∧
      List.Forall₂ ListsRelation (es.filter (·.tagged "relation")) rs ∧
      y = ⟨x.name, x.attributes ++ as, x.relations ++ rs⟩ := by
  induction es generalizing x with
  | nil =>
    constructor
    · rintro ⟨⟩
      exact ⟨[], [], .nil, .nil, by simp⟩
    · rintro ⟨_, _, ⟨⟩, ⟨⟩, rfl⟩
      rw [List.append_nil, List.append_nil]
      rfl
  | cons e rest ih =>
    rw [List.foldlM_cons, bind_eq_ok]
    simp only [ih]
    cases own : e.tagged "attribute" with
    | true =>
      simp only [addMember_attribute own, List.filter_cons, own, tagged_once own, if_true, Bool.false_eq_true, if_false]
      constructor
      · rintro ⟨_, ⟨a, lists, rfl⟩, as, rs, attributes, relations, rfl⟩
        exact ⟨a :: as, rs, .cons lists attributes, relations, by simp⟩
      · rintro ⟨_, rs, ⟨⟩ | ⟨lists, attributes⟩, relations, rfl⟩
        exact ⟨_, ⟨_, lists, rfl⟩, _, rs, attributes, relations, by simp⟩
    | false =>
      cases own' : e.tagged "relation" with
      | true =>
        simp only [addMember_relation own' own, List.filter_cons, own, own', if_true, Bool.false_eq_true, if_false]
        constructor
        · rintro ⟨_, ⟨r, lists, rfl⟩, as, rs, attributes, relations, rfl⟩
          exact ⟨as, r :: rs, attributes, .cons lists relations, by simp⟩
        · rintro ⟨as, _, attributes, ⟨⟩ | ⟨lists, relations⟩, rfl⟩
          exact ⟨_, ⟨_, lists, rfl⟩, as, _, attributes, relations, by simp⟩
      | false =>
        rw [addMember_foreign own own']
        simp [own, own']

theorem toEntity_eq_ok : e.toEntity = .ok x ↔ ListsEntity e x := by
  unfold toEntity
  simp only [bind_eq_ok, requireName_eq_ok, foldlM_addMember]
  constructor
  · rintro ⟨n, name, as, rs, attributes, relations, rfl⟩
    exact ⟨name, attributes, relations⟩
  · rintro ⟨name, attributes, relations⟩
    exact ⟨x.name, name, x.attributes, x.relations, attributes, relations, rfl⟩

theorem exists_forall₂ {α β : Type} {R : α → β → Prop} {xs : List α} :
    (∃ ys, List.Forall₂ R xs ys) ↔ ∀ x ∈ xs, ∃ y, R x y := by
  induction xs with
  | nil => exact ⟨fun _ => List.forall_mem_nil _, fun _ => ⟨[], .nil⟩⟩
  | cons x rest ih =>
    rw [List.forall_mem_cons, ← ih]
    constructor
    · rintro ⟨_, _ | ⟨first, others⟩⟩
      exact ⟨⟨_, first⟩, _, others⟩
    · rintro ⟨⟨y, first⟩, ys, others⟩
      exact ⟨y :: ys, .cons first others⟩

theorem wellNamed_iff : e.WellNamed ↔ ∃ x, ListsEntity e x := by
  have kinds : ∀ c : Element, ∃ k : ScalarKind, (∃ s, c.Gives "type" s ∧ k.Spelled s) ∨
      k = .text ∧ ∀ s, c.Gives "type" s → ∀ k : ScalarKind, ¬ k.Spelled s := by
    intro c
    by_cases given : ∃ s, c.Gives "type" s ∧ ∃ k : ScalarKind, k.Spelled s
    · obtain ⟨s, gives, k, spelled⟩ := given
      exact ⟨k, .inl ⟨s, gives, spelled⟩⟩
    · exact ⟨.text, .inr ⟨rfl, fun s gives k spelled => given ⟨s, gives, k, spelled⟩⟩⟩
  constructor
  · rintro ⟨own, attributes, relations⟩
    obtain ⟨n, name⟩ := names_iff.1 own
    have ⟨as, attributes⟩ : ∃ as, List.Forall₂ ListsAttribute (e.children.filter (·.tagged "attribute")) as := by
      refine exists_forall₂.2 fun c mem => ?_
      obtain ⟨child, tagged⟩ := List.mem_filter.1 mem
      obtain ⟨n, name⟩ := names_iff.1 (attributes c child tagged)
      obtain ⟨k, kind⟩ := kinds c
      exact ⟨⟨n, k⟩, name, kind⟩
    have ⟨rs, relations⟩ : ∃ rs, List.Forall₂ ListsRelation (e.children.filter (·.tagged "relation")) rs := by
      refine exists_forall₂.2 fun c mem => ?_
      obtain ⟨child, tagged⟩ := List.mem_filter.1 mem
      obtain ⟨own, target⟩ := relations c child tagged
      obtain ⟨n, name⟩ := names_iff.1 own
      obtain ⟨t, target⟩ := names_iff.1 target
      exact ⟨⟨n, t⟩, name, target⟩
    exact ⟨⟨n, as, rs⟩, name, attributes, relations⟩
  · rintro ⟨x, name, attributes, relations⟩
    refine ⟨names_iff.2 ⟨_, name⟩, fun c child tagged => ?_, fun c child tagged => ?_⟩
    · obtain ⟨a, lists⟩ := exists_forall₂.1 ⟨_, attributes⟩ c (List.mem_filter.2 ⟨child, tagged⟩)
      exact names_iff.2 ⟨_, lists.name⟩
    · obtain ⟨r, lists⟩ := exists_forall₂.1 ⟨_, relations⟩ c (List.mem_filter.2 ⟨child, tagged⟩)
      exact ⟨names_iff.2 ⟨_, lists.name⟩, names_iff.2 ⟨_, lists.target⟩⟩

end Members

/-! ### Entities at any depth -/

theorem outer_append (xs ys : List (List Element × Element)) : outer (xs ++ ys) = outer xs ++ outer ys := by
  simp [outer]

theorem outer_cons (above : List Element) (e : Element) (xs : List (List Element × Element)) :
    outer ((above, e) :: xs) = (if e.isEntity && !above.any isEntity then [e] else []) ++ outer xs := by
  unfold outer
  rw [List.filter_cons]
  split <;> simp

mutual

theorem outer_descend (above : List Element) : (e : Element) → outer (descend above e) =
    if above.any isEntity then [] else if e.isEntity then [e] else outer (descendAll [] e.children)
  | ⟨name, attributes, children⟩ => by
    rw [descend, outer_cons, outer_descendAll _ children, List.any_cons]
    cases isEntity ⟨name, attributes, children⟩ <;> cases above.any isEntity <;> rfl

/-- Inside an element for an entity no other one counts; else it makes no difference what there is above. -/
theorem outer_descendAll (above : List Element) : (es : List Element) → outer (descendAll above es) =
    if above.any isEntity then [] else outer (descendAll [] es)
  | [] => by simp [descendAll, outer]
  | e :: rest => by
    rw [descendAll, descendAll, outer_append, outer_append, outer_descend above e, outer_descend [] e,
      outer_descendAll above rest]
    cases above.any isEntity <;> rfl

end

mutual

theorem entitiesBelow_eq : (e : Element) → e.entitiesBelow = e.outermost.mapM toEntity
  | ⟨_, _, children⟩ => by
    rw [entitiesBelow, entitiesAmong_eq children]
    rfl

/-- What is collected are the outermost elements for entities, each read by itself. -/
theorem entitiesAmong_eq : (es : List Element) → entitiesAmong es = (outer (descendAll [] es)).mapM toEntity
  | [] => rfl
  | e :: rest => by
    rw [entitiesAmong, descendAll, outer_append, List.mapM_append, outer_descend [] e, entitiesAmong_eq rest]
    cases e.isEntity with
    | true => simp
    | false =>
      rw [entitiesBelow_eq e]
      rfl

end

theorem toModel_eq_ok {root : Element} {m : Model} : root.toModel = .ok m ↔ ListsModel root m := by
  have name : m.name = root.attribute? "Name" ↔ ∀ s, m.name = some s ↔ root.Gives "Name" s := by
    simp only [← attribute?_eq_some]
    exact Option.ext_iff
  unfold toModel
  rw [bind_eq_ok, entitiesBelow_eq]
  constructor
  · rintro ⟨xs, read, ended⟩
    simp only [mapM_eq_ok, toEntity_eq_ok] at read
    cases xs with
    | nil => cases ended
    | cons x rest =>
      cases ended
      exact ⟨name.1 rfl, read, List.cons_ne_nil _ _⟩
  · rintro ⟨own, read, some⟩
    refine ⟨m.entities, by simpa only [mapM_eq_ok, toEntity_eq_ok] using read, ?_⟩
    rw [← name.2 own]
    obtain ⟨_, entities⟩ := m
    obtain ⟨x, rest, rfl⟩ := List.exists_cons_of_ne_nil some
    rfl

theorem exists_toModel {root : Element} :
    (∃ m, root.toModel = .ok m) ↔ root.outermost ≠ [] ∧ ∀ e ∈ root.outermost, e.WellNamed := by
  simp only [toModel_eq_ok, wellNamed_iff, ← exists_forall₂]
  constructor
  · rintro ⟨m, _, entities, some⟩
    refine ⟨fun none => some ?_, _, entities⟩
    exact List.forall₂_nil_left_iff.1 (none ▸ entities)
  · rintro ⟨some, xs, entities⟩
    refine ⟨⟨root.attribute? "Name", xs⟩, fun s => attribute?_eq_some, entities, ?_⟩
    rintro rfl
    exact some (List.forall₂_nil_right_iff.1 entities)

/-! ### Encodings of models -/

structure EncodesAttribute (e : Element) (a : Attribute) : Prop where
  tag : e.tagged "attribute" = true
  name : e.Gives "Name" a.name.text
  kind : ∃ s, e.Gives "type" s ∧ a.kind.Spelled s

structure EncodesRelation (e : Element) (r : Relation) : Prop where
  tag : e.tagged "relation" = true
  name : e.Gives "Name" r.name.text
  target : e.Gives "target" r.target.text

/-- Elements for attributes and for relations, each in their order, with any others among them. -/
inductive Members : List Element → List Attribute → List Relation → Prop
  | none : Members [] [] []
  | «attribute» {e : Element} {a : Attribute} {es : List Element} {as : List Attribute} {rs : List Relation}
    (first : EncodesAttribute e a) (others : Members es as rs) : Members (e :: es) (a :: as) rs
  | relation {e : Element} {r : Relation} {es : List Element} {as : List Attribute} {rs : List Relation}
    (first : EncodesRelation e r) (others : Members es as rs) : Members (e :: es) as (r :: rs)
  | foreign {e : Element} {es : List Element} {as : List Attribute} {rs : List Relation}
    (neither : e.tagged "attribute" = false ∧ e.tagged "relation" = false) (others : Members es as rs) :
    Members (e :: es) as rs

structure EncodesEntity (e : Element) (x : Entity) : Prop where
  tag : e.isEntity = true
  name : e.Gives "Name" x.name.text
  members : Members e.children x.attributes x.relations

/-- Elements for entities in their order, inside any other elements and next to them. -/
inductive Wraps : List Element → List Entity → Prop
  | none : Wraps [] []
  | entity {e : Element} {x : Entity} {es : List Element} {xs : List Entity} (first : EncodesEntity e x)
    (others : Wraps es xs) : Wraps (e :: es) (x :: xs)
  | wrapper {e : Element} {es : List Element} {xs ys : List Entity} (other : e.isEntity = false)
    (inside : Wraps e.children xs) (others : Wraps es ys) : Wraps (e :: es) (xs ++ ys)

structure Encodes (root : Element) (m : Model) : Prop where
  name : ∀ s, m.name = some s ↔ root.Gives "Name" s
  entities : Wraps root.children m.entities
  some : m.entities ≠ []

theorem Members.lists {es : List Element} {as : List Attribute} {rs : List Relation} (members : Members es as rs) :
    List.Forall₂ ListsAttribute (es.filter (·.tagged "attribute")) as ∧
      List.Forall₂ ListsRelation (es.filter (·.tagged "relation")) rs := by
  induction members with
  | none => exact ⟨.nil, .nil⟩
  | «attribute» first _ ih =>
    simp only [List.filter_cons, first.tag, tagged_once first.tag, if_true, Bool.false_eq_true, if_false]
    exact ⟨.cons ⟨first.name, .inl first.kind⟩ ih.1, ih.2⟩
  | @relation e _ _ _ _ first _ ih =>
    have other : e.tagged "attribute" = false := by
      cases own : e.tagged "attribute" with
      | false => rfl
      | true => exact first.tag.symm.trans (tagged_once own)
    simp only [List.filter_cons, first.tag, other, if_true, Bool.false_eq_true, if_false]
    exact ⟨ih.1, .cons ⟨first.name, first.target⟩ ih.2⟩
  | foreign neither _ ih =>
    simpa only [List.filter_cons, neither.1, neither.2, Bool.false_eq_true, if_false] using ih

theorem EncodesEntity.toEntity {e : Element} {x : Entity} (encodes : EncodesEntity e x) : e.toEntity = .ok x :=
  toEntity_eq_ok.2 ⟨encodes.name, encodes.members.lists.1, encodes.members.lists.2⟩

theorem Wraps.entitiesAmong {es : List Element} {xs : List Entity} (wraps : Wraps es xs) :
    Element.entitiesAmong es = .ok xs := by
  induction wraps with
  | none => rfl
  | entity first _ ih =>
    rw [Element.entitiesAmong, if_pos first.tag, first.toEntity, ih]
    rfl
  | @wrapper e _ _ _ other _ _ inside ih =>
    have below : e.entitiesBelow = Element.entitiesAmong e.children := by
      cases e
      exact Element.entitiesBelow.eq_1 ..
    rw [Element.entitiesAmong, if_neg (Bool.not_eq_true _ ▸ other), below, inside, ih]
    rfl

/-- Whatever way a model is written, it is what is read. -/
theorem Encodes.toModel {root : Element} {m : Model} (encodes : Encodes root m) : root.toModel = .ok m := by
  refine toModel_eq_ok.2 ⟨encodes.name, ?_, encodes.some⟩
  have read : root.outermost.mapM Element.toEntity = .ok m.entities :=
    (entitiesAmong_eq _).symm.trans encodes.entities.entitiesAmong
  simpa only [mapM_eq_ok, toEntity_eq_ok] using read

end TreeStore.Xml.Element

namespace TreeStore

open Xml

/-! ### One way to write a model -/

def Attribute.toElement (a : Attribute) : Element := ⟨"attribute", [("Name", a.name.text), ("type", a.kind.word)], []⟩

def Relation.toElement (r : Relation) : Element :=
  ⟨"relation", [("Name", r.name.text), ("target", r.target.text)], []⟩

def Entity.toElement (x : Entity) : Element :=
  ⟨"Entity", [("Name", x.name.text)], x.attributes.map (·.toElement) ++ x.relations.map (·.toElement)⟩

def Model.toElement (m : Model) : Element :=
  ⟨"meta-meta-model", m.name.toList.map ("Name", ·), m.entities.map (·.toElement)⟩

theorem gives_first {tag key value : String} {as : List (String × String)} {children : List Element} :
    Element.Gives ⟨tag, (key, value) :: as, children⟩ key value :=
  ⟨[], key, as, rfl, Text.sameIgnoringCase_self key, List.forall_mem_nil _⟩

theorem gives_second {tag key other value v : String} {children : List Element}
    (differ : Text.sameIgnoringCase other key = false) :
    Element.Gives ⟨tag, [(other, v), (key, value)], children⟩ key value :=
  ⟨[(other, v)], key, [], rfl, Text.sameIgnoringCase_self key, List.forall_mem_singleton.2 differ⟩

theorem Attribute.encodes_toElement (a : Attribute) : a.toElement.EncodesAttribute a where
  tag := Text.sameIgnoringCase_self _
  name := gives_first
  kind := by
    refine ⟨a.kind.word, gives_second (by decide +kernel), ScalarKind.spelled_iff.2 ?_⟩
    cases a.kind <;> decide +kernel

theorem Relation.encodes_toElement (r : Relation) : r.toElement.EncodesRelation r where
  tag := Text.sameIgnoringCase_self _
  name := gives_first
  target := gives_second (by decide +kernel)

theorem Entity.encodes_toElement (x : Entity) : x.toElement.EncodesEntity x where
  tag := by simp [Element.isEntity, toElement]
  name := gives_first
  members := by
    have relations : ∀ rs : List Relation, Element.Members (rs.map (·.toElement)) [] rs := by
      intro rs
      induction rs with
      | nil => exact .none
      | cons r rest ih => exact .relation r.encodes_toElement ih
    have all : ∀ (as : List Attribute) (rs : List Relation),
        Element.Members (as.map (·.toElement) ++ rs.map (·.toElement)) as rs := by
      intro as rs
      induction as with
      | nil => exact relations rs
      | cons a rest ih => exact .attribute a.encodes_toElement ih
    exact all x.attributes x.relations

theorem Model.encodes_toElement {m : Model} (some : m.entities ≠ []) : m.toElement.Encodes m where
  name s := by
    rw [← Element.attribute?_eq_some]
    cases eq : m.name <;> simp [toElement, Element.attribute?, eq]
  entities := by
    have all : ∀ xs : List Entity, Element.Wraps (xs.map (·.toElement)) xs := by
      intro xs
      induction xs with
      | nil => exact .none
      | cons x rest ih => exact .entity x.encodes_toElement ih
    exact all m.entities
  some := some

theorem Model.ofText_xml {text : String} {root : Element} {m : Model} (read : Element.ofText text = .ok root)
    (meant : root.toModel = .ok m) (origin : String) : Model.ofText .xml origin text = .ok m := by
  unfold Model.ofText Format.decode
  dsimp only
  rw [read, ok_bind, meant]
  rfl

/-- An element tree is read as a model just if there are elements for entities, and they have their names. The model is
what they list, in any way to write it, and what is read from YAML with the same content. -/
theorem xml_models :
    (∀ root : Element, (∃ m, root.toModel = .ok m) ↔ root.outermost ≠ [] ∧ ∀ e ∈ root.outermost, e.WellNamed) ∧
    (∀ (root : Element) (m : Model), root.toModel = .ok m ↔ root.ListsModel m) ∧
    (∀ (root : Element) (m : Model), root.Encodes m → root.toModel = .ok m ∧ Model.ofNode m.toNode = .ok m) ∧
    (∀ m : Model, m.entities ≠ [] → m.toElement.Encodes m) ∧
    ∀ (root : Element) (m : Model) (xml yaml origin : String), root.Encodes m → Element.ofText xml = .ok root →
      Yaml.read yaml = ⟨m.toNode, true⟩ →
      Model.ofText .xml origin xml = .ok m ∧ Model.ofText .yaml origin yaml = .ok m := by
  refine ⟨fun _ => Element.exists_toModel, fun _ _ => Element.toModel_eq_ok,
    fun root m encodes => ⟨encodes.toModel, m.ofNode_toNode⟩, fun m => Model.encodes_toElement, ?_⟩
  intro root m xml yaml origin encodes read kept
  exact ⟨Model.ofText_xml read encodes.toModel origin, Model.ofText_yaml kept origin⟩

namespace Sample

def switchesXml : String := "<M NAME='null'><G><ENTITY name='On'><n/><Attribute Name='5' Type=' DOUBLE '/>" ++
  "<relation target='On' Name='to'><relation/></relation></ENTITY></G></M>"

def switchesElement : Element := ⟨"M", [("NAME", "null")], [⟨"G", [], [⟨"ENTITY", [("name", "On")],
  [⟨"n", [], []⟩, ⟨"Attribute", [("Name", "5"), ("Type", " DOUBLE ")], []⟩,
    ⟨"relation", [("target", "On"), ("Name", "to")], [⟨"relation", [], []⟩]⟩]⟩]⟩]⟩

theorem switchesElement_encodes : switchesElement.Encodes switches where
  name s := by
    rw [← Element.attribute?_eq_some, show switchesElement.attribute? "Name" = some "null" by decide +kernel]
    exact Iff.rfl
  entities := by
    show Element.Wraps _ (switches.entities ++ [])
    refine .wrapper (by decide +kernel) (.entity ⟨by decide +kernel, ?_, .foreign (by decide +kernel) ?_⟩ .none) .none
    · exact Element.attribute?_eq_some.1 (by decide +kernel)
    · refine .attribute ⟨by decide +kernel, ?_, " DOUBLE ", ?_, ?_⟩ (.relation ⟨by decide +kernel, ?_, ?_⟩ .none)
      · exact Element.attribute?_eq_some.1 (by decide +kernel)
      · exact Element.attribute?_eq_some.1 (by decide +kernel)
      · exact ScalarKind.spelled_iff.2 (by decide +kernel)
      · exact Element.attribute?_eq_some.1 (by decide +kernel)
      · exact Element.attribute?_eq_some.1 (by decide +kernel)
  some := List.cons_ne_nil _ _

end Sample

theorem xml_models_switches : Sample.switchesElement.Encodes Sample.switches ∧
    Model.ofText .xml "m" Sample.switchesXml = .ok Sample.switches ∧
    Model.ofText .yaml "m" Sample.switches.yaml = .ok Sample.switches := by
  have read : Element.ofText Sample.switchesXml = .ok Sample.switchesElement :=
    Element.ofText_eq_ok.2 ⟨by decide +kernel, by decide +kernel⟩
  have kept : Yaml.read Sample.switches.yaml = ⟨Sample.switches.toNode, true⟩ := by
    rw [Sample.switches_yaml]
    exact Reading.eq_of_same (by decide +kernel)
  obtain ⟨_, _, _, _, agree⟩ := xml_models
  exact ⟨Sample.switchesElement_encodes, agree _ _ _ _ "m" Sample.switchesElement_encodes read kept⟩

end TreeStore
