import TreeStore.Proofs.TextMap
import TreeStore.Proofs.Xml.Attributes
import TreeStore.Xml.Element

/-! A sequence of events is read as an element just if its tags are those of one element; else it is said what is wrong.
The tree of an element has a node for each element in it. -/

namespace TreeStore.Xml

/-! ### Tags of elements -/

namespace Event

/-- The tags of an event: one that closes itself is one that opens and one that closes. -/
def tags : Event → List Event
  | .start tag => [.start tag]
  | .empty tag => [.start tag, .close]
  | .close => [.close]
  | .other => []

def isStart : Event → Bool
  | .start _ => true
  | _ => false

/-- Events inside so many open elements. Every closing tag closes an open one, and the tags are as they are read. -/
structure Sound (outer : Nat) (es : List Event) : Prop where
  nested : ∀ before, before ++ [.close] <+: es → before.count .close < outer + before.countP isStart
  read : ∀ tag, .start tag ∈ es.flatMap tags → ∃ inside, Tag.ofText inside = .ok tag

end Event

namespace Element

mutual

def tags : Element → List Event
  | ⟨name, attributes, children⟩ => .start ⟨name, attributes⟩ :: (tagsOf children ++ [.close])

def tagsOf : List Element → List Event
  | [] => []
  | e :: rest => tags e ++ tagsOf rest

end

theorem tagsOf_append (es fs : List Element) : tagsOf (es ++ fs) = tagsOf es ++ tagsOf fs := by
  induction es with
  | nil => rfl
  | cons e rest ih => rw [List.cons_append, tagsOf, tagsOf, ih, List.append_assoc]

theorem tagsOf_singleton (e : Element) : tagsOf [e] = e.tags := List.append_nil _

/-- The tags of an element that is still open, with the children it has so far. -/
def opened (e : Tag × List Element) : List Event := .start e.1 :: tagsOf e.2

inductive Objection : List Event → String → Prop
  /-- An element after the root, once it is closed. -/
  | secondRoot (root second : Element) (rest : List Event) :
    Objection (root.tags ++ second.tags ++ rest) s!"second root element <{second.name}>"
  /-- Elements that are open at the end, each but the first in the one before it. -/
  | notClosed (root? : Option Element) (outer : List (Tag × List Element)) (inner : Tag × List Element) :
    Objection (tagsOf root?.toList ++ (outer ++ [inner]).flatMap opened) s!"element <{inner.1.name}> is not closed"
  | noRoot : Objection [] "document has no root element"

/-- A node for an element, with its name as type, its attributes, and nodes for its children in their order. -/
inductive Mirrors : Element → Tree → Prop
  | node {name : String} {attributes : List (String × String)} {as : TextMap String} {children : List Element}
    {ts : List Tree} (same : ∀ key value, as.get? key = some value ↔ (key, value) ∈ attributes)
    (below : List.Forall₂ Mirrors children ts) : Mirrors ⟨name, attributes, children⟩ ⟨name, as, ts⟩

/-! ### What elements are read as -/

variable {p q : Progress}

theorem foldlM_tags (es : List Event) (p : Progress) :
    (es.flatMap Event.tags).foldlM Progress.step p = es.foldlM Progress.step p := by
  induction es generalizing p with
  | nil => rfl
  | cons e rest ih =>
    rw [List.flatMap_cons, List.foldlM_append, List.foldlM_cons]
    have one : e.tags.foldlM Progress.step p = Progress.step p e := by
      cases e with
      | other => rfl
      | _ => simp [Event.tags, Progress.step, Pending.complete]
    rw [one]
    exact congrArg _ (funext ih)

mutual

theorem foldlM_element (p : Progress) : (e : Element) → e.tags.foldlM Progress.step p = p.attach e
  | ⟨name, attributes, children⟩ => by
    rw [tags, List.foldlM_cons]
    refine (List.foldlM_append ..).trans ?_
    rw [foldlM_elements p.root? p.pending ⟨name, attributes⟩ [] children]
    simp [Progress.step, Pending.complete]

theorem foldlM_elements (root? : Option Element) (outer : List Pending) (tag : Tag) (done : List Element) :
    (es : List Element) → (tagsOf es).foldlM Progress.step ⟨⟨tag, done⟩ :: outer, root?⟩ =
      .ok ⟨⟨tag, es.reverse ++ done⟩ :: outer, root?⟩
  | [] => rfl
  | e :: rest => by
    rw [tagsOf, List.foldlM_append, foldlM_element _ e]
    refine (foldlM_elements root? outer tag (e :: done) rest).trans ?_
    simp

end

theorem foldlM_opened (p : Progress) (es : List (Tag × List Element)) :
    (es.flatMap opened).foldlM Progress.step p =
      .ok ⟨(es.map fun e => ⟨e.1, e.2.reverse⟩).reverse ++ p.pending, p.root?⟩ := by
  induction es generalizing p with
  | nil => rfl
  | cons e rest ih =>
    rw [List.flatMap_cons, List.foldlM_append, opened, List.foldlM_cons, Progress.step, ok_bind, foldlM_elements,
      ok_bind, ih]
    simp

/-! ### What is read amounts to the tags so far -/

def Progress.tags (p : Progress) : List Event :=
  tagsOf p.root?.toList ++ (p.pending.reverse.map fun e => (e.tag, e.children.reverse)).flatMap opened

theorem Progress.tags_cons (inner : Pending) (outer : List Pending) (root? : Option Element) :
    Progress.tags ⟨inner :: outer, root?⟩ =
      Progress.tags ⟨outer, root?⟩ ++ .start inner.tag :: tagsOf inner.children.reverse := by
  simp [Progress.tags, opened]

theorem Pending.tags_complete (e : Pending) :
    e.complete.tags = .start e.tag :: (tagsOf e.children.reverse ++ [.close]) := rfl

theorem Progress.attach_tags {e : Element} (attached : p.attach e = .ok q) :
    q.tags = p.tags ++ e.tags ∧ q.pending.length = p.pending.length := by
  rcases p with ⟨_ | ⟨inner, outer⟩, _ | root⟩ <;> cases attached
  all_goals simp [Progress.tags, opened, tagsOf_append, tagsOf]

theorem Progress.attach_fault {e : Element} {fault : Fault} (failed : p.attach e = .error fault) :
    ∃ root : Element, p.tags = root.tags ∧ fault = .secondRoot e.name := by
  rcases p with ⟨_ | ⟨inner, outer⟩, _ | root⟩ <;> cases failed
  exact ⟨root, by simp [Progress.tags, tagsOf], rfl⟩

/-- A step reads the tags of an event, and opens or closes one element. -/
theorem Progress.step_tags {e : Event} (stepped : p.step e = .ok q) : q.tags = p.tags ++ e.tags ∧
    q.pending.length + [e].count .close = p.pending.length + [e].countP Event.isStart := by
  cases e with
  | start tag =>
    cases stepped
    exact ⟨Progress.tags_cons _ _ _, rfl⟩
  | empty tag => exact Progress.attach_tags stepped
  | close =>
    rcases p with ⟨_ | ⟨inner, outer⟩, root?⟩
    · cases stepped
    · obtain ⟨tags, length⟩ := Progress.attach_tags stepped
      refine ⟨?_, by simp [length, Event.isStart]⟩
      rw [tags, Progress.tags_cons, Pending.tags_complete]
      simp [Event.tags]
  | other =>
    cases stepped
    exact ⟨(List.append_nil _).symm, rfl⟩

theorem Progress.step_fault {e : Event} {fault : Fault} (failed : p.step e = .error fault) :
    p.pending = [] ∧ e = .close ∨
      ∃ root second : Element, p.tags ++ e.tags = root.tags ++ second.tags ∧ fault = .secondRoot second.name := by
  cases e with
  | start tag => cases failed
  | empty tag =>
    obtain ⟨root, tags, rfl⟩ := Progress.attach_fault failed
    exact .inr ⟨root, ⟨tag.name, tag.attributes, []⟩, by rw [tags]; rfl, rfl⟩
  | close =>
    rcases p with ⟨_ | ⟨inner, outer⟩, root?⟩
    · exact .inl ⟨rfl, rfl⟩
    · obtain ⟨root, tags, rfl⟩ := Progress.attach_fault failed
      refine .inr ⟨root, inner.complete, ?_, rfl⟩
      rw [Progress.tags_cons, tags, Pending.tags_complete]
      simp [Event.tags]
  | other => cases failed

/-- What has been read are the tags so far, and what is open has been opened and not closed. -/
theorem foldlM_progress {es : List Event} (ended : es.foldlM Progress.step p = .ok q) :
    q.tags = p.tags ++ es.flatMap Event.tags ∧
      q.pending.length + es.count .close = p.pending.length + es.countP Event.isStart := by
  induction es generalizing p with
  | nil =>
    cases ended
    exact ⟨(List.append_nil _).symm, rfl⟩
  | cons e rest ih =>
    rw [List.foldlM_cons, bind_eq_ok] at ended
    obtain ⟨c, first, later⟩ := ended
    obtain ⟨tags, depth⟩ := Progress.step_tags first
    obtain ⟨tags', depth'⟩ := ih later
    refine ⟨by rw [tags', tags, List.flatMap_cons, List.append_assoc], ?_⟩
    rw [← List.singleton_append, List.count_append, List.countP_append]
    omega

/-! ### Reading as one element -/

/-- Events are read as an element just if their tags are those of the element. -/
theorem ofEvents_eq_ok {es : List Event} {e : Element} :
    ofEvents ⟨es, none⟩ = .ok e ↔ es.flatMap Event.tags = e.tags := by
  unfold ofEvents
  rw [bind_eq_ok]
  constructor
  · rintro ⟨q, ended, finished⟩
    obtain ⟨tags, _⟩ := foldlM_progress ended
    rcases q with ⟨_ | ⟨inner, outer⟩, _ | root⟩ <;> cases finished
    simpa [Progress.tags, tagsOf] using tags.symm
  · intro tags
    refine ⟨⟨[], some e⟩, ?_, rfl⟩
    rw [← foldlM_tags, tags, foldlM_element]
    rfl

/-- A text is read as an element just if its markup has no fault, and its tags are those of the element. -/
theorem ofText_eq_ok {s : String} {e : Element} :
    ofText s = .ok e ↔ (Events.ofText s).fault? = none ∧ (Events.ofText s).list.flatMap Event.tags = e.tags := by
  unfold ofText
  rcases Events.ofText s with ⟨es, _ | fault⟩
  · exact ofEvents_eq_ok.trans ⟨fun tags => ⟨rfl, tags⟩, And.right⟩
  · simp only [ofEvents, bind_eq_ok, reduceCtorEq, false_and, iff_false]
    rintro ⟨_, _, ⟨⟩⟩

theorem Objection.of_error {es : List Event} {fault : Fault} (sound : Event.Sound 0 es)
    (failed : ofEvents ⟨es, none⟩ = .error fault) : Objection (es.flatMap Event.tags) fault.message := by
  unfold ofEvents at failed
  cases ended : es.foldlM Progress.step ⟨[], none⟩ with
  | error f =>
    rw [ended] at failed
    cases failed
    obtain ⟨before, e, after, c, rfl, read, failed⟩ := foldlM_eq_error ended
    obtain ⟨tags, depth⟩ := foldlM_progress read
    rcases Progress.step_fault failed with ⟨none, rfl⟩ | ⟨root, second, more, rfl⟩
    · -- As many elements have been closed as opened, but events that nest close none then.
      have later := sound.nested before (by simp)
      simp [none] at depth
      omega
    · have all : (before ++ e :: after).flatMap Event.tags =
          root.tags ++ second.tags ++ after.flatMap Event.tags := by
        rw [List.flatMap_append, List.flatMap_cons, ← List.append_assoc, ← more, tags]
        rfl
      rw [all]
      exact .secondRoot root second _
  | ok p =>
    rw [ended] at failed
    obtain ⟨tags, _⟩ := foldlM_progress ended
    rw [show es.flatMap Event.tags = p.tags from tags.symm]
    rcases p with ⟨_ | ⟨inner, outer⟩, root?⟩
    · cases root? with
      | none =>
        cases failed
        exact .noRoot
      | some root => cases failed
    · cases failed
      simp only [Progress.tags, List.reverse_cons, List.map_append]
      exact .notClosed root? _ (inner.tag, inner.children.reverse)

theorem Objection.error {es : List Event} {text : String} (objection : Objection (es.flatMap Event.tags) text) :
    ∃ fault, ofEvents ⟨es, none⟩ = .error fault ∧ fault.message = text := by
  have ended := foldlM_tags es ⟨[], none⟩
  unfold ofEvents
  generalize es.flatMap Event.tags = ts at objection ended
  dsimp only
  rw [← ended]
  cases objection with
  | secondRoot root second rest =>
    refine ⟨.secondRoot second.name, ?_, rfl⟩
    have again : (root.tags ++ second.tags).foldlM Progress.step ⟨[], none⟩ = .error (.secondRoot second.name) := by
      rw [List.foldlM_append, foldlM_element]
      exact foldlM_element _ second
    rw [List.foldlM_append, again]
    rfl
  | notClosed root? outer inner =>
    refine ⟨.notClosed inner.1.name, ?_, rfl⟩
    have first : (tagsOf root?.toList).foldlM Progress.step ⟨[], none⟩ = .ok ⟨[], root?⟩ := by
      cases root? with
      | none => rfl
      | some root => exact (tagsOf_singleton root).symm ▸ foldlM_element _ root
    rw [List.foldlM_append, first, ok_bind, foldlM_opened, ok_bind, List.map_append, List.reverse_append]
    rfl
  | noRoot => exact ⟨.noRoot, rfl, rfl⟩

/-! ### Trees of elements -/

mutual

theorem mirrors_toTree : (e : Element) → (∀ tag, .start tag ∈ e.tags → (tag.attributes.map (·.1)).Nodup) →
    e.Mirrors e.toTree
  | ⟨name, attributes, children⟩, distinct => by
    rw [toTree]
    have own : (attributes.map (·.1)).Nodup := distinct ⟨name, attributes⟩ (by simp [tags])
    refine .node (fun key value => TextMap.get?_ofList own) (mirrors_toTrees children fun tag mem => distinct tag ?_)
    simp [tags, mem]

theorem mirrors_toTrees : (es : List Element) →
    (∀ tag, .start tag ∈ tagsOf es → (tag.attributes.map (·.1)).Nodup) → List.Forall₂ Mirrors es (toTrees es)
  | [], _ => .nil
  | e :: rest, distinct =>
    .cons (mirrors_toTree e fun tag mem => distinct tag (List.mem_append_left _ mem))
      (mirrors_toTrees rest fun tag mem => distinct tag (List.mem_append_right _ mem))

end

end Element

/-! ### Events of texts -/

namespace Event

/-- What a step of reading a text may give: an event that opens or closes as many tags as come or go. -/
structure Yields (names : List String) (e? : Option Event) (names' : List String) : Prop where
  depth : names'.length + e?.toList.count .close = names.length + e?.toList.countP isStart
  read : ∀ tag, .start tag ∈ e?.toList.flatMap tags → ∃ inside, Tag.ofText inside = .ok tag

variable {names names' : List String} {e? : Option Event} {mode mode' : Mode} {run : List Char}

theorem Yields.nothing : Yields names none names := ⟨rfl, by simp⟩

theorem Yields.other : Yields names (some .other) names := ⟨rfl, by simp [tags]⟩

theorem endTag_yields (ended : endTag names run = .ok (e?, names', mode)) : Yields names e? names' := by
  unfold endTag at ended
  split at ended <;> obtain ⟨tag, read, ⟨⟩⟩ := bind_eq_ok.1 ended
  · exact ⟨rfl, fun _ mem => ⟨_, by simp [tags] at mem; exact mem ▸ read⟩⟩
  · exact ⟨rfl, fun _ mem => ⟨_, by simp [tags] at mem; exact mem ▸ read⟩⟩

theorem endClosing_yields (ended : endClosing names run = .ok (e?, names', mode)) : Yields names e? names' := by
  unfold endClosing at ended
  cases names with
  | nil => cases ended
  | cons name outer =>
    dsimp only at ended
    generalize String.ofList _ = closed at ended
    split at ended <;> cases ended
    exact ⟨rfl, by simp [tags]⟩

theorem endInstruction_yields (ended : endInstruction names run = .ok (e?, names', mode)) : Yields names e? names' := by
  unfold endInstruction at ended
  split at ended <;> cases ended
  exact .other

theorem endIf_yields {valid : Bool} (ended : endIf valid names = .ok (e?, names', mode)) : Yields names e? names' := by
  unfold endIf at ended
  split at ended <;> cases ended
  exact .other

theorem Yields.stay (stays : (.ok (none, names, mode) : Step) = .ok (e?, names', mode')) : Yields names e? names' := by
  cases stays
  exact .nothing

theorem step_yields {c : Char} (stepped : step names mode c = .ok (e?, names', mode')) : Yields names e? names' := by
  cases mode with
  | outside => exact .stay stepped
  | opened =>
    simp only [step] at stepped
    split_ifs at stepped
    · exact .stay stepped
    · exact .stay stepped
    · exact .stay stepped
    · exact endTag_yields stepped
    · exact .stay stepped
    · exact .stay stepped
  | tag quote run =>
    cases quote with
    | none =>
      simp only [step] at stepped
      split_ifs at stepped
      · exact endTag_yields stepped
      · exact .stay stepped
      · exact .stay stepped
    | some q => exact .stay stepped
  | closing run =>
    simp only [step] at stepped
    split_ifs at stepped
    · exact endClosing_yields stepped
    · exact .stay stepped
  | instruction run =>
    simp only [step] at stepped
    split_ifs at stepped
    · exact endInstruction_yields stepped
    · exact .stay stepped
  | bang =>
    simp only [step] at stepped
    split_ifs at stepped
    · exact .stay stepped
    · exact .stay stepped
    · exact .stay stepped
  | comment run =>
    simp only [step] at stepped
    split at stepped
    · exact endIf_yields stepped
    · exact .stay stepped
  | «section» run =>
    simp only [step] at stepped
    split at stepped
    · exact endIf_yields stepped
    · exact .stay stepped
  | doctype run =>
    simp only [step] at stepped
    split_ifs at stepped
    · exact endIf_yields stepped
    · exact .stay stepped

theorem Sound.nil (outer : Nat) : Sound outer [] := ⟨fun _ within => by simp at within, by simp⟩

theorem Sound.append (first : Yields names e? names') {es : List Event} (later : Sound names'.length es) :
    Sound names.length (e?.toList ++ es) := by
  refine ⟨fun before within => ?_, fun tag mem => ?_⟩
  · have depth := first.depth
    cases e? with
    | none =>
      have := later.nested before within
      simp at depth
      omega
    | some e =>
      cases before with
      | nil =>
        -- The first event closes a tag, so one is open.
        obtain rfl : .close = e := by simpa using within
        simp [isStart] at depth
        simp
        omega
      | cons d before =>
        obtain ⟨rfl, below⟩ := List.cons_prefix_cons.1 within
        have := later.nested before below
        rw [← List.singleton_append, List.count_append, List.countP_append]
        simp only [Option.toList_some] at depth
        omega
  · rw [List.flatMap_append, List.mem_append] at mem
    exact mem.elim (first.read tag) (later.read tag)

theorem finish_sound (names : List String) (mode : Mode) : Sound names.length (finish names mode).list := by
  unfold finish
  dsimp only
  split
  · next event left ended =>
    have yields : Yields names event left.1 := by
      cases mode with
      | outside => exact .stay ended
      | opened => exact .stay ended
      | closing run => exact endClosing_yields ended
      | instruction run => exact endInstruction_yields ended
      | _ => cases ended
    simpa using Sound.append yields (.nil _)
  · exact .nil _

theorem scan_sound (names : List String) (mode : Mode) (cs : List Char) :
    Sound names.length (scan names mode cs).list := by
  induction cs generalizing names mode with
  | nil => exact finish_sound names mode
  | cons c rest ih =>
    rw [scan]
    split
    · exact .nil _
    · next stepped => exact .append (step_yields stepped) (ih _ _)

end Event

/-- The events of a text are as they have to be, also where reading it ends with a fault. -/
theorem Events.ofText_sound (s : String) : Event.Sound 0 (Events.ofText s).list := Event.scan_sound [] _ _

/-- A sequence of events is read as an element just if its tags are those of the element; else the error says what is
wrong with them. The tags are as they are spelled, and the tree that is made of an element mirrors it. -/
theorem reads_one_element {es : List Event} (sound : Event.Sound 0 es) :
    (∀ e, Element.ofEvents ⟨es, none⟩ = .ok e ↔ es.flatMap Event.tags = e.tags) ∧
    (∀ text, (∃ fault, Element.ofEvents ⟨es, none⟩ = .error fault ∧ fault.message = text) ↔
      Element.Objection (es.flatMap Event.tags) text) ∧
    (∀ inside tag, Tag.ofText inside = .ok tag ↔ tag.Spelled inside) ∧
    ∀ e, Element.ofEvents ⟨es, none⟩ = .ok e → e.Mirrors e.toTree := by
  refine ⟨fun e => Element.ofEvents_eq_ok, fun text => ⟨?_, Element.Objection.error⟩, fun _ _ => Tag.ofText_eq_ok,
    fun e read => Element.mirrors_toTree e fun tag mem => ?_⟩
  · rintro ⟨fault, failed, rfl⟩
    exact .of_error sound failed
  · rw [← Element.ofEvents_eq_ok.1 read] at mem
    obtain ⟨inside, spelled⟩ := sound.read tag mem
    exact Tag.Spelled.nodup (Tag.ofText_eq_ok.1 spelled)

namespace Sample

def text : String := "<Cell a=\"1\" xmlns:n=\"u\">.<Gap/><!-- - --><Cell b='&lt;'></Cell></Cell>"

def events : List Event :=
  [.start ⟨"Cell", [("a", "1")]⟩, .empty ⟨"Gap", []⟩, .other, .start ⟨"Cell", [("b", "<")]⟩, .close, .close]

def element : Element := ⟨"Cell", [("a", "1")], [⟨"Gap", [], []⟩, ⟨"Cell", [("b", "<")], []⟩]⟩

end Sample

theorem reads_one_element_sample : Event.Sound 0 Sample.events ∧
    Element.ofEvents ⟨Sample.events, none⟩ = .ok Sample.element ∧ Sample.element.Mirrors Sample.element.toTree := by
  have read : (Events.ofText Sample.text).list = Sample.events := by decide +kernel
  have sound : Event.Sound 0 Sample.events := read ▸ Events.ofText_sound Sample.text
  obtain ⟨accepts, _, _, mirrors⟩ := reads_one_element sound
  have accepted := (accepts Sample.element).2 (by decide +kernel)
  exact ⟨sound, accepted, mirrors _ accepted⟩

end TreeStore.Xml
