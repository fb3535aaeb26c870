import TreeStore.Proofs.Load.Run

/-! Nodes that carry declared attributes only. Each of these has its column, no column of a relation is given a
value, and so such a node is refused only if a value cannot be read or its sequence is exhausted. -/

namespace TreeStore

open Database Loader

/-- A node carries only attributes that its entity declares, but for the case of ASCII letters. -/
def DeclaredOn (e : Entity) (attributes : TextMap String) : Prop :=
  ∀ k ∈ attributes.keys, ∃ a ∈ e.attributes, Text.sameIgnoringCase a.name.text k = true

def ReadableOn {V : Type} (vs : ValueSystem V) (e : Entity) (attributes : TextMap String) : Prop :=
  ∀ x ∈ attributes.entries, ∀ a ∈ e.attributes, Text.sameIgnoringCase a.name.text x.1 = true →
    (vs.ofText? (catalogType vs a.kind.columnType) x.2).isSome = true

namespace Model.Compiles

variable {m : Model} (compiles : m.Compiles) {e : Entity} (he : e ∈ m.entities)
include compiles he

theorem relation_entry {entry : HierarchyEntry} (mem : entry ∈ m.hierarchy.relationsOf e.name.text) :
    ∃ r ∈ e.relations, r.name.text = entry.relation := by
  obtain ⟨entered, parent⟩ := List.mem_filter.1 mem
  obtain ⟨f, hf, r, hr, rfl⟩ := Model.mem_hierarchyEntries.1 (Hierarchy.mem_ofEntries entered)
  obtain rfl := compiles.wellNamed.entity_of_text hf he (of_decide_eq_true parent)
  exact ⟨r, hr, rfl⟩

theorem attribute_not_relation {a : Attribute} (ha : a ∈ e.attributes) {r : Relation} (hr : r ∈ e.relations) :
    Text.sameIgnoringCase a.name.text r.column = false := by
  obtain ⟨valid, _, apart⟩ := compiles.attribute_checked he ha
  have column := Ident.isValid_ascii (compiles.relation_valid he hr).2
  rw [sameIgnoringCase_ascii (Ident.isValid_ascii valid) column, Bool.eq_false_iff]
  exact fun same => apart r hr (sameName_iff.1 same).symm

theorem attribute_isAttributeName {a : Attribute} (ha : a ∈ e.attributes) :
    m.hierarchy.isAttributeName e.name.text a.name.text = true := by
  obtain ⟨valid, notId, _⟩ := compiles.attribute_checked he ha
  have lowerId : Text.lower Schema.idColumn = Schema.idColumn := by decide
  have id : Text.sameIgnoringCase a.name.text Schema.idColumn = false := by
    rw [sameIgnoringCase_ascii (Ident.isValid_ascii valid) StoredTable.isAscii_idColumn, Bool.eq_false_iff]
    exact fun same => notId ((sameName_iff.1 same).trans lowerId)
  have relations : ((m.hierarchy.relationsOf e.name.text).map fun entry => Schema.contextColumn entry.relation).any
      (Text.sameIgnoringCase a.name.text ·) = false := by
    rw [List.any_map, List.any_eq_false]
    intro entry mem
    obtain ⟨r, hr, name⟩ := compiles.relation_entry he mem
    have apart := compiles.attribute_not_relation he ha hr
    rw [Bool.not_eq_true, Function.comp_apply, ← name]
    exact apart
  rw [Hierarchy.isAttributeName, id, relations]
  rfl

end Model.Compiles

variable {V : Type} {vs : ValueSystem V} {m : Model} {e : Entity} {attributes : TextMap String} {created : List Name}

theorem entityTable_column {c : Column} (mem : c ∈ (stored vs (Schema.entityTable created e)).columns) :
    (c.name = Schema.idColumn ∧ c.references? = none) ∨
      (∃ a ∈ e.attributes, c.name = a.name.text ∧ c.type = catalogType vs a.kind.columnType ∧ c.references? = none) ∨
      ∃ r ∈ e.relations, c.name = r.column := by
  obtain ⟨d, hd, rfl⟩ := (mem_stored_columns vs).1 mem
  simp only [Schema.entityTable, List.cons_append, List.mem_cons, List.mem_append, List.mem_map] at hd
  rcases hd with rfl | ⟨a, ha, rfl⟩ | ⟨r, hr, rfl⟩
  · exact .inl ⟨rfl, rfl⟩
  · exact .inr (.inl ⟨a, ha, rfl, rfl, rfl⟩)
  · exact .inr (.inr ⟨r, hr, rfl⟩)

theorem attribute_column {a : Attribute} (ha : a ∈ e.attributes) :
    ∃ c ∈ (stored vs (Schema.entityTable created e)).columns,
      c.name = a.name.text ∧ c.type = catalogType vs a.kind.columnType := by
  have listed : ({ name := a.name.text, type := a.kind.columnType } : Column) ∈
      (Schema.entityTable created e).columns :=
    List.mem_append_left _ (List.mem_cons_of_mem _ (List.mem_map.2 ⟨a, ha, rfl⟩))
  exact ⟨_, (mem_stored_columns vs).2 ⟨_, listed, rfl⟩, rfl, rfl⟩

namespace DeclaredOn

variable (declared : DeclaredOn e attributes) (compiles : m.Compiles) (he : e ∈ m.entities)
include declared compiles he

theorem fits : (stored vs (Schema.entityTable created e)).Fits m.hierarchy attributes := by
  intro k hk
  obtain ⟨a, ha, same⟩ := declared k hk
  obtain ⟨c, hc, name, _⟩ : ∃ c ∈ (stored vs (Schema.entityTable created e)).columns,
      c.name = a.name.text ∧ c.type = catalogType vs a.kind.columnType := attribute_column ha
  refine ⟨c, hc, ?_, by rw [name]; exact same⟩
  rw [name]
  exact compiles.attribute_isAttributeName he ha

theorem relation_unset {r : Relation} (hr : r ∈ e.relations) {c : Column} (name : c.name = r.column) :
    valueFor? attributes c.inCatalog = none := by
  rw [← Option.not_isSome_iff_eq_none, valueFor?_isSome]
  rintro ⟨k, hk, same⟩
  obtain ⟨a, ha, key⟩ := declared k hk
  have apart := compiles.attribute_not_relation he ha hr
  have equal : Text.sameIgnoringCase a.name.text r.column = true := by
    rw [← name]
    exact Text.sameIgnoringCase_iff.2 ((Text.sameIgnoringCase_iff.1 key).trans (Text.sameIgnoringCase_iff.1 same))
  rw [apart] at equal
  cases equal

theorem castable (readable : ReadableOn vs e attributes) :
    (stored vs (Schema.entityTable created e)).Castable vs m.hierarchy attributes := by
  intro c hc own text value
  rcases entityTable_column hc with ⟨name, _⟩ | ⟨a, ha, name, type, _⟩ | ⟨r, hr, name⟩
  · rw [Hierarchy.isAttributeName, name, Text.sameIgnoringCase_self] at own
    cases own
  · obtain ⟨x, found, rfl⟩ := Option.map_eq_some_iff.1 value
    have same : Text.sameIgnoringCase x.1 c.name = true :=
      List.find?_some (p := fun x : String × String => Text.sameIgnoringCase x.1 c.name) found
    rw [type]
    refine readable x (List.mem_of_find?_eq_some found) a ha ?_
    rw [← name]
    exact Text.sameIgnoringCase_iff.2 (Text.sameIgnoringCase_iff.1 same).symm
  · rw [declared.relation_unset compiles he hr name] at value
    cases value

theorem keepsReferences {db : Database V} (mem : Schema.entityTable created e ∈ m.tables) (n : Int) :
    db.keepsReferences vs (db.tableAt vs (Schema.entityTable created e))
      ((stored vs (Schema.entityTable created e)).entityRow vs m.hierarchy attributes n) = true := by
  have ofEntity := compiles.stored_ofEntity vs mem rfl []
  rw [Database.keepsReferences, List.all_eq_true]
  intro c hc
  rcases entityTable_column hc with ⟨_, reference⟩ | ⟨a, ha, _, _, reference⟩ | ⟨r, hr, name⟩
  · rw [reference]
  · rw [reference]
  · cases isId : sameName c.name Schema.idColumn with
    | true =>
      obtain ⟨id, rest, columns, idName, _, _, reference, _⟩ := ofEntity.columns
      have inside : id ∈ (stored vs (Schema.entityTable created e)).columns := by
        rw [show (stored vs (Schema.entityTable created e)).columns = id :: rest from columns]
        exact List.mem_cons_self
      have same : Text.lower c.name = Text.lower id.name := (sameName_iff.1 isId).trans (by rw [idName])
      obtain rfl := List.inj_on_of_nodup_map ofEntity.distinct hc inside same
      rw [reference]
    | false =>
      have cell : (db.tableAt vs (Schema.entityTable created e)).cell
          ((stored vs (Schema.entityTable created e)).entityRow vs m.hierarchy attributes n) c.name =
            (stored vs (Schema.entityTable created e)).attributeCell vs m.hierarchy attributes c :=
        StoredTable.entityRow_cell ofEntity hc isId
      rw [cell, StoredTable.attributeCell, declared.relation_unset compiles he hr name, Option.bind_none, ite_self]
      cases c.references? <;> rfl

end DeclaredOn

/-! ### Refusal -/

variable {x : Trail} {db db' : Database V} {error : LoadError} {enforce : Bool}

/-- A node that carries declared attributes is refused only if a value cannot be read or no number is left. -/
theorem NodeRefused.of_declared (compiles : m.Compiles)
    (declared : ∀ e ∈ m.entities, e.name.text = x.node.type → DeclaredOn e x.node.attributes)
    (refused : NodeRefused vs m enforce x db error db') : (∃ path, error = .store path (.failed .execution none)) ∧
      ((∀ e ∈ m.entities, e.name.text = x.node.type → ReadableOn vs e x.node.attributes) →
        ∃ q n, db.next? q = some n ∧ endOfSequence ≤ n) := by
  cases refused with
  | mk bears table refused =>
    obtain ⟨mem, kind, type⟩ := table
    obtain ⟨e, he, created, rfl⟩ := compiles.entity_kind mem kind
    have own := declared e he type
    cases refused with
    | unfit carried unknown => exact absurd (own.fits compiles he _ carried) unknown
    | unreadable fits bad =>
    exact ⟨⟨_, rfl⟩, fun readable => absurd (own.castable compiles he (readable e he type)) bad⟩
    | exhausted fits castable new next reached => exact ⟨⟨_, rfl⟩, fun _ => ⟨_, _, next, reached⟩⟩
    | dangling fits castable new next left asked broken =>
      rw [own.keepsReferences compiles he mem] at broken
      cases broken

theorem Stopped.refused {settings : LoadSettings} {xs : List Trail} {report : LoadReport}
    (stopped : Stopped vs m enforce settings xs db report error db') :
    ∃ before x after db₁ report₁, xs = before ++ x :: after ∧ Loaded vs m settings before db report db₁ report₁ ∧
      NodeRefused vs m enforce x db₁ error db' := by
  induction stopped with
  | @here x rest db₁ db₂ r₁ error lawful refused => exact ⟨[], x, rest, db₁, r₁, rfl, .nil _ _, refused⟩
  | @later x rest db₁ db₂ db₃ r₁ r₂ error lawful knows first others ih =>
    obtain ⟨before, y, after, db₄, r₄, rfl, loaded, refused⟩ := ih
    exact ⟨x :: before, y, after, db₄, r₄, rfl, .cons lawful knows first loaded, refused⟩

end TreeStore
