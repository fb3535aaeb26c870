import Mathlib.Data.List.Nodup
import TreeStore.Proofs.Hierarchy
import TreeStore.Proofs.Names
import TreeStore.Proofs.Outcome
import TreeStore.Schema.Compile

/-! What holds of a model that compiles: its names are identifiers, the names of its tables differ in more
than case, and so do the names of the columns of each table. -/

namespace TreeStore

/-- What differs in its keys differs. -/
theorem names_of_keys {α β γ : Type} {xs : List α} {name : α → β} (key : β → γ)
    (keys : (xs.map fun x => key (name x)).Nodup) : (xs.map name).Nodup := by
  have listed : ((xs.map name).map key).Nodup := by simpa [Function.comp_def] using keys
  exact listed.of_map

namespace Relation

theorem lower_column (r : Relation) : Text.lower r.column = r.name.key ++ "_id" :=
  Schema.lower_contextColumn r.name.text

theorem lower_column_inj {r s : Relation} :
    Text.lower r.column = Text.lower s.column ↔ r.name.key = s.name.key := by
  rw [lower_column, lower_column]
  exact ⟨fun same => by simpa [← String.toList_inj, String.toList_append] using same, congrArg (· ++ "_id")⟩

theorem column_ne_id (r : Relation) : Text.lower r.column ≠ Schema.idColumn :=
  Schema.contextColumn_ne_id r.name.text

end Relation

namespace Compile

/-! ### Single checks -/

theorem checkIdent_ok {name context : String} :
    checkIdent name context = .ok () ↔ Ident.isValid name = true := by
  rw [checkIdent, mapError_eq_ok, check_ok]

theorem checkName_ok {name : Name} {kind : NameKind} {owner : Option String} :
    checkName name kind owner = .ok () ↔ Ident.isValid name.text = true := by
  unfold checkName Name.check
  rw [mapError_eq_ok, check_ok]

theorem origin?_eq_none {relations : List Relation} {key : String} : origin? relations key = none ↔
    key ≠ Schema.idColumn ∧ ∀ r ∈ relations, Text.lower r.column ≠ key := by
  unfold origin?
  split
  · next same => simp [same]
  · next other => simp [other]

theorem checkColumn_ok {entity : Name} {relations : List Relation} {column : String} :
    checkColumn entity relations column = .ok () ↔ Text.lower column ≠ Schema.idColumn ∧
      ∀ r ∈ relations, Text.lower r.column ≠ Text.lower column := by
  rw [← origin?_eq_none]
  unfold checkColumn
  cases origin? relations (Text.lower column) with
  | none => exact ⟨fun _ => rfl, fun _ => rfl⟩
  | some origin => exact ⟨(nomatch ·), (nomatch ·)⟩

/-- That the columns of two relations are the same needs no check of its own: then so are their names. -/
theorem checkRelation_ok {entity : Name} {before : List Relation} {r : Relation} :
    checkRelation entity before r = .ok () ↔
      (Ident.isValid r.name.text = true ∧ Ident.isValid r.column = true) ∧
        ∀ b ∈ before, b.name.key ≠ r.name.key := by
  unfold checkRelation
  simp only [seq_eq_ok, checkName_ok, and_assoc]
  refine and_congr_right fun _ => ?_
  split
  · next old =>
    obtain ⟨b, mem, same⟩ := List.any_eq_true.1 old
    exact ⟨(nomatch ·), fun h => absurd (of_decide_eq_true same) (h.2 b mem)⟩
  · next new =>
    have fresh : ∀ b ∈ before, b.name.key ≠ r.name.key := by simpa using new
    simp only [seq_eq_ok, checkIdent_ok, checkColumn_ok, ne_eq, Relation.lower_column_inj]
    exact ⟨fun h => ⟨h.1, fresh⟩, fun h => ⟨h.1, r.column_ne_id, fresh⟩⟩

theorem checkAttribute_ok {e : Entity} {before : List Attribute} {a : Attribute} :
    checkAttribute e before a = .ok () ↔
      (Ident.isValid a.name.text = true ∧ a.name.key ≠ Schema.idColumn ∧
        ∀ r ∈ e.relations, Text.lower r.column ≠ a.name.key) ∧
        ∀ b ∈ before, b.name.key ≠ a.name.key := by
  unfold checkAttribute
  simp only [seq_eq_ok, checkName_ok, and_assoc]
  refine and_congr_right fun _ => ?_
  split
  · next old =>
    obtain ⟨b, mem, same⟩ := List.any_eq_true.1 old
    exact ⟨(nomatch ·), fun h => absurd (of_decide_eq_true same) (h.2.2 b mem)⟩
  · next new =>
    have fresh : ∀ b ∈ before, b.name.key ≠ a.name.key := by simpa using new
    rw [checkColumn_ok]
    exact ⟨fun h => ⟨h.1, h.2, fresh⟩, fun h => ⟨h.1, h.2.1⟩⟩

theorem checkTargets_ok {m : Model} : checkTargets m = .ok () ↔
    ∀ e ∈ m.entities, ∀ r ∈ e.relations, ∃ f ∈ m.entities, f.name = r.target := by
  simp only [checkTargets, forM_eq_ok]
  refine forall₂_congr fun e _ => forall₂_congr fun r _ => ?_
  cases found : m.entity? r.target.text with
  | none =>
    have unknown : ∀ f ∈ m.entities, f.name.text ≠ r.target.text := by simpa [Model.entity?] using found
    exact ⟨(nomatch ·), fun ⟨f, mem, same⟩ => absurd (congrArg Name.text same) (unknown f mem)⟩
  | some f =>
    have same : f.name.text = r.target.text := by simpa using List.find?_some found
    exact ⟨fun _ => ⟨f, List.mem_of_find?_eq_some found, Name.ext same⟩, fun _ => rfl⟩

theorem checkTable_ok {before : List Table} {t : Table} :
    checkTable before t = .ok () ↔
      (Ident.isValid t.name = true ∧ ∀ c ∈ t.columns, Ident.isValid c.name = true) ∧
        ∀ u ∈ before, Text.lower u.name ≠ Text.lower t.name := by
  unfold checkTable
  simp only [seq_eq_ok, checkIdent_ok, forM_eq_ok, and_assoc]
  refine and_congr_right fun _ => and_congr_right fun _ => ?_
  split
  · next first found =>
    have same : Text.lower first.name = Text.lower t.name := by simpa using List.find?_some found
    exact ⟨(nomatch ·), fun h => absurd same (h first (List.mem_of_find?_eq_some found))⟩
  · next none => exact ⟨fun _ => by simpa using none, fun _ => rfl⟩

/-! ### Checks of one part after another -/

/-- Where a part is checked by itself and against the keys of the parts before it, all parts pass if each is right by
itself and their keys are distinct. -/
theorem checkEach_ok {α : Type} {check : List α → α → Except CompileError Unit} (Right : α → Prop)
    (key : α → String) (each : ∀ before x, check before x = .ok () ↔ Right x ∧ ∀ b ∈ before, key b ≠ key x)
    {xs : List α} : checkEach check [] xs = .ok () ↔ (∀ x ∈ xs, Right x) ∧ (xs.map key).Nodup := by
  have after : ∀ before, checkEach check before xs = .ok () ↔
      (∀ x ∈ xs, Right x) ∧ (∀ x ∈ xs, ∀ b ∈ before, key b ≠ key x) ∧ (xs.map key).Nodup := by
    induction xs with
    | nil => simp [checkEach]
    | cons x rest ih =>
      intro before
      have apart : (∀ y ∈ rest, ∀ b ∈ before ++ [x], key b ≠ key y) ↔
          (∀ y ∈ rest, ∀ b ∈ before, key b ≠ key y) ∧ key x ∉ rest.map key := by
        simp only [List.mem_append, List.mem_singleton, List.mem_map, not_exists, not_and]
        exact ⟨fun h => ⟨fun y hy b hb => h y hy b (.inl hb), fun y hy same => h y hy x (.inr rfl) same.symm⟩,
          fun h y hy b hb => hb.elim (h.1 y hy b) fun eq => eq ▸ fun same => h.2 y hy same.symm⟩
      rw [checkEach, seq_eq_ok, each, ih, apart, List.forall_mem_cons, List.forall_mem_cons, List.map_cons,
        List.nodup_cons]
      tauto
  simpa using after []

theorem relations_ok {entity : Name} {relations : List Relation} :
    checkEach (checkRelation entity) [] relations = .ok () ↔
      (∀ r ∈ relations, Ident.isValid r.name.text = true ∧ Ident.isValid r.column = true) ∧
        (relations.map (·.name.key)).Nodup :=
  checkEach_ok (fun r : Relation => Ident.isValid r.name.text = true ∧ Ident.isValid r.column = true)
    (fun r : Relation => r.name.key) fun _ _ => checkRelation_ok

theorem attributes_ok {e : Entity} : checkEach (checkAttribute e) [] e.attributes = .ok () ↔
    (∀ a ∈ e.attributes, Ident.isValid a.name.text = true ∧ a.name.key ≠ Schema.idColumn ∧
      ∀ r ∈ e.relations, Text.lower r.column ≠ a.name.key) ∧ (e.attributes.map (·.name.key)).Nodup :=
  checkEach_ok (fun a : Attribute => Ident.isValid a.name.text = true ∧ a.name.key ≠ Schema.idColumn ∧
    ∀ r ∈ e.relations, Text.lower r.column ≠ a.name.key) (fun a : Attribute => a.name.key)
    fun _ _ => checkAttribute_ok

theorem tables_ok {tables : List Table} : checkEach checkTable [] tables = .ok () ↔
    (∀ t ∈ tables, Ident.isValid t.name = true ∧ ∀ c ∈ t.columns, Ident.isValid c.name = true) ∧
      (tables.map (Text.lower ·.name)).Nodup :=
  checkEach_ok (fun t : Table => Ident.isValid t.name = true ∧ ∀ c ∈ t.columns, Ident.isValid c.name = true)
    (fun t : Table => Text.lower t.name) fun _ _ => checkTable_ok

end Compile

/-! ### Names -/

/-- The names that an entity declares are identifiers, and differ in more than case wherever they name columns of one
table. -/
structure Entity.WellNamed (e : Entity) : Prop where
  relations : ∀ r ∈ e.relations, Ident.isValid r.name.text = true ∧ Ident.isValid r.column = true
  relationsApart : (e.relations.map (·.name.key)).Nodup
  attributes : ∀ a ∈ e.attributes, Ident.isValid a.name.text = true
  attributesApart : (e.attributes.map (·.name.key)).Nodup
  noId : ∀ a ∈ e.attributes, a.name.key ≠ Schema.idColumn
  noRelation : ∀ a ∈ e.attributes, ∀ r ∈ e.relations, a.name.key ≠ Text.lower r.column

structure Model.WellNamed (m : Model) : Prop where
  valid : ∀ e ∈ m.entities, Ident.isValid e.name.text = true
  apart : (m.entities.map (·.name.key)).Nodup
  parts : ∀ e ∈ m.entities, e.WellNamed

namespace Compile

theorem parts_ok {e : Entity} : (checkEach (checkRelation e.name) [] e.relations = .ok () ∧
    checkEach (checkAttribute e) [] e.attributes = .ok ()) ↔ e.WellNamed := by
  rw [relations_ok, attributes_ok]
  constructor
  · rintro ⟨⟨relations, relationsApart⟩, attributes, attributesApart⟩
    exact ⟨relations, relationsApart, fun a ha => (attributes a ha).1, attributesApart,
      fun a ha => (attributes a ha).2.1, fun a ha r hr => ((attributes a ha).2.2 r hr).symm⟩
  · intro named
    exact ⟨⟨named.relations, named.relationsApart⟩,
      fun a ha => ⟨named.attributes a ha, named.noId a ha, fun r hr => (named.noRelation a ha r hr).symm⟩,
      named.attributesApart⟩

theorem checkEntity_ok {before : List Entity} {e : Entity} : checkEntity before e = .ok () ↔
    (Ident.isValid e.name.text = true ∧ e.WellNamed) ∧ ∀ b ∈ before, b.name.key ≠ e.name.key := by
  rw [← parts_ok]
  unfold checkEntity
  simp only [seq_eq_ok, checkName_ok, and_assoc]
  refine and_congr_right fun _ => ?_
  split
  · next old found =>
    have same : old.name.key = e.name.key := by simpa using List.find?_some found
    exact ⟨(nomatch ·), fun h => absurd same (h.2.2 old (List.mem_of_find?_eq_some found))⟩
  · next none =>
    have fresh : ∀ b ∈ before, b.name.key ≠ e.name.key := by simpa using none
    rw [seq_eq_ok]
    exact ⟨fun h => ⟨h.1, h.2, fresh⟩, fun h => ⟨h.1, h.2.1⟩⟩

theorem entities_ok {m : Model} : checkEach checkEntity [] m.entities = .ok () ↔ m.WellNamed := by
  rw [checkEach_ok (fun e : Entity => Ident.isValid e.name.text = true ∧ e.WellNamed)
    (fun e : Entity => e.name.key) fun _ _ => checkEntity_ok]
  exact ⟨fun h => ⟨fun e he => (h.1 e he).1, h.2, fun e he => (h.1 e he).2⟩,
    fun h => ⟨fun e he => ⟨h.valid e he, h.parts e he⟩, h.apart⟩⟩

end Compile

namespace Model.WellNamed

variable {m : Model} (named : m.WellNamed)
include named

theorem entity_unique {e f : Entity} (he : e ∈ m.entities) (hf : f ∈ m.entities)
    (same : e.name.key = f.name.key) : e = f :=
  List.inj_on_of_nodup_map named.apart he hf same

theorem entity_of_text {e f : Entity} (he : e ∈ m.entities) (hf : f ∈ m.entities)
    (same : e.name.text = f.name.text) : e = f :=
  named.entity_unique he hf (by rw [Name.key, Name.key, same])

theorem entity_names : (m.entities.map (·.name)).Nodup := names_of_keys Name.key named.apart

end Model.WellNamed

structure Model.Compiles (m : Model) : Prop where
  entities : Compile.checkEach Compile.checkEntity [] m.entities = .ok ()
  targets : Compile.checkTargets m = .ok ()
  tables : Compile.checkEach Compile.checkTable [] m.tables = .ok ()

theorem ofModel_ok {m : Model} {s : Schema} : Schema.ofModel m = .ok s ↔ s = m.schema ∧ m.Compiles := by
  simp only [Schema.ofModel, seq_eq_ok]
  exact ⟨fun ⟨a, b, c, d⟩ => ⟨(Except.ok.inj d).symm, a, b, c⟩, fun ⟨d, a, b, c⟩ => ⟨a, b, c, d ▸ rfl⟩⟩

namespace Model.Compiles

open Compile

variable {m : Model} (compiles : m.Compiles)
include compiles

omit compiles in
theorem wellNamed (compiles : m.Compiles) : m.WellNamed := entities_ok.1 compiles.entities

theorem entity_valid {e : Entity} (mem : e ∈ m.entities) : Ident.isValid e.name.text = true :=
  compiles.wellNamed.valid e mem

theorem entity_ascii {e : Entity} (mem : e ∈ m.entities) : Text.IsAscii e.name.text :=
  Ident.isValid_ascii (compiles.entity_valid mem)

theorem relation_valid {e : Entity} (mem : e ∈ m.entities) {r : Relation} (hr : r ∈ e.relations) :
    Ident.isValid r.name.text = true ∧ Ident.isValid r.column = true :=
  (compiles.wellNamed.parts e mem).relations r hr

theorem relation_keys {e : Entity} (mem : e ∈ m.entities) : (e.relations.map (·.name.key)).Nodup :=
  (compiles.wellNamed.parts e mem).relationsApart

theorem attribute_checked {e : Entity} (mem : e ∈ m.entities) {a : Attribute} (ha : a ∈ e.attributes) :
    Ident.isValid a.name.text = true ∧ a.name.key ≠ Schema.idColumn ∧
      ∀ r ∈ e.relations, Text.lower r.column ≠ a.name.key := by
  have named := compiles.wellNamed.parts e mem
  exact ⟨named.attributes a ha, named.noId a ha, fun r hr => (named.noRelation a ha r hr).symm⟩

theorem attribute_keys {e : Entity} (mem : e ∈ m.entities) : (e.attributes.map (·.name.key)).Nodup :=
  (compiles.wellNamed.parts e mem).attributesApart

/-- The target of a relation is an entity, spelled the same. -/
theorem target_mem {e : Entity} (mem : e ∈ m.entities) {r : Relation} (hr : r ∈ e.relations) :
    ∃ f ∈ m.entities, f.name = r.target :=
  checkTargets_ok.1 compiles.targets e mem r hr

theorem table_checked {t : Table} (mem : t ∈ m.tables) : Ident.isValid t.name = true ∧
    ∀ c ∈ t.columns, Ident.isValid c.name = true :=
  (tables_ok.1 compiles.tables).1 t mem

theorem table_keys : (m.tables.map (Text.lower ·.name)).Nodup := (tables_ok.1 compiles.tables).2

theorem table_unique {t u : Table} (ht : t ∈ m.tables) (hu : u ∈ m.tables)
    (same : sameName t.name u.name = true) : t = u :=
  List.inj_on_of_nodup_map compiles.table_keys ht hu (sameName_iff.1 same)

end Model.Compiles

/-! ### Small models -/

namespace Sample

def boxes : Model where
  name := none
  entities :=
    [ { name := ⟨"Box", by decide⟩
        attributes := [⟨⟨"size", by decide⟩, .integer⟩]
        relations := [⟨⟨"in", by decide⟩, ⟨"Item", by decide⟩⟩] },
      { name := ⟨"Item", by decide⟩
        attributes := [⟨⟨"n", by decide⟩, .text⟩]
        relations := [] } ]

theorem boxes_compile : Schema.ofModel boxes = .ok boxes.schema := by decide +kernel

/-- Steps that lead on and back, by two relations from steps to steps. -/
def walks : Model where
  name := none
  entities :=
    [ { name := ⟨"Step", by decide⟩
        attributes := [⟨⟨"n", by decide⟩, .text⟩]
        relations := [⟨⟨"next", by decide⟩, ⟨"Step", by decide⟩⟩, ⟨⟨"back", by decide⟩, ⟨"Step", by decide⟩⟩] } ]

theorem walks_compile : Schema.ofModel walks = .ok walks.schema := by decide +kernel

end Sample

end TreeStore
