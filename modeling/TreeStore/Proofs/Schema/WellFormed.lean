import TreeStore.Proofs.Schema.Tables

/-! Which models compile, and what is wrong with those that do not. Names are checked before targets and these before
generated tables, so an error of a later check says that the earlier ones have passed. -/

namespace TreeStore

/-! ### Well-formed models -/

namespace Model

def TargetsKnown (m : Model) : Prop :=
  ∀ e ∈ m.entities, ∀ r ∈ e.relations, ∃ f ∈ m.entities, f.name = r.target

def tableNames (m : Model) : List String :=
  Schema.registryTable :: m.entities.map (·.name.text)
    ++ m.entities.flatMap (fun e => e.relations.map fun r => Schema.junctionTable e.name.text r.name.text)
    ++ (m.entities.filter (·.isLeaf)).map (Schema.relationshipsTable ·.name.text)

/-- The columns that hold ids of entities. An entity that is its own child needs a second one. -/
def idColumns (m : Model) : List String :=
  m.entities.flatMap fun e => Schema.contextColumn e.name.text ::
    if e.relations.any (·.target = e.name) then ["child_" ++ Schema.contextColumn e.name.text] else []

structure TablesApart (m : Model) : Prop where
  apart : (m.tableNames.map Text.lower).Nodup
  tables : ∀ name ∈ m.tableNames, Ident.isValid name = true
  columns : ∀ column ∈ m.idColumns, Ident.isValid column = true

structure WellFormed (m : Model) : Prop where
  named : m.WellNamed
  targets : m.TargetsKnown
  tables : m.TablesApart

namespace WellNamed

variable {m : Model} (named : m.WellNamed)
include named

theorem leaves : m.entities.filter (m.hierarchy.isLeaf ·.name.text) = m.entities.filter (·.isLeaf) := by
  refine List.filter_congr fun e he => ?_
  rw [Bool.eq_iff_iff, named.isLeaf_iff he, Entity.isLeaf, List.isEmpty_iff]

theorem tableNames_perm : (m.tables.map (·.name)).Perm m.tableNames := by
  have order := (creationOrder_perm named.entity_names).map (·.name.text)
  simp only [Model.tables, tableNames, Model.junctions, Model.relationshipTables, named.leaves, List.map_append,
    List.map_cons, List.map_flatMap, List.map_map, Schema.entityTables_names, List.cons_append]
  exact ((order.append_right _).append_right _).cons _

/-- A table with the id column of every entity: a leaf's surroundings, or else the junction of a relation. -/
theorem contextColumn_listed {e : Entity} (mem : e ∈ m.entities) :
    ∃ t ∈ m.tables, ∃ c ∈ t.columns, c.name = Schema.contextColumn e.name.text := by
  cases relations : e.relations with
  | nil =>
    have leaf := (named.isLeaf_iff mem).2 relations
    exact ⟨_, Compiles.relationships_mem mem leaf, Schema.context e.name.text, by simp [Schema.relationships], rfl⟩
  | cons r _ =>
    have hr : r ∈ e.relations := by simp [relations]
    exact ⟨_, Compiles.junction_mem mem hr, _, List.mem_cons_self, rfl⟩

theorem idColumn_listed {column : String} (mem : column ∈ m.idColumns) :
    ∃ t ∈ m.tables, ∃ c ∈ t.columns, c.name = column := by
  obtain ⟨e, he, listed⟩ := List.mem_flatMap.1 mem
  rcases List.mem_cons.1 listed with rfl | child
  · exact named.contextColumn_listed he
  · split at child
    · next self =>
      obtain ⟨r, hr, same⟩ := List.any_eq_true.1 self
      obtain rfl := List.mem_singleton.1 child
      have target : r.target = e.name := of_decide_eq_true same
      exact ⟨_, Compiles.junction_mem he hr, _, List.mem_cons_of_mem _ List.mem_cons_self,
        by simp [Schema.junctionTarget, target]⟩
    · cases child

omit named in
theorem contextColumn_mem {e : Entity} (mem : e ∈ m.entities) : Schema.contextColumn e.name.text ∈ m.idColumns :=
  List.mem_flatMap.2 ⟨e, mem, List.mem_cons_self⟩

theorem junctionTarget_mem {e f : Entity} (he : e ∈ m.entities) (hf : f ∈ m.entities) {r : Relation}
    (hr : r ∈ e.relations) (target : f.name = r.target) :
    Schema.junctionTarget e.name.text f.name.text ∈ m.idColumns := by
  unfold Schema.junctionTarget
  split
  · next self =>
    obtain rfl := named.entity_of_text he hf self
    have loop : e.relations.any (·.target = e.name) = true :=
      List.any_eq_true.2 ⟨r, hr, decide_eq_true target.symm⟩
    refine List.mem_flatMap.2 ⟨e, he, ?_⟩
    simp [loop]
  · exact contextColumn_mem hf

/-- Every column of a table is an identifier, holds ids of entities, or is there for an attribute or a relation. -/
theorem column_valid (known : m.TargetsKnown) (ids : ∀ column ∈ m.idColumns, Ident.isValid column = true)
    {t : Table} (mem : t ∈ m.tables) {c : Column} (hc : c ∈ t.columns) : Ident.isValid c.name = true := by
  rcases named.mem_tables mem with rfl | ⟨e, he, created, rfl⟩ | ⟨e, he, r, hr, rfl⟩ | ⟨e, he, _, rfl⟩
  · have all : ∀ c ∈ Schema.registry.columns, Ident.isValid c.name = true := by decide
    exact all c hc
  · have parts := named.parts e he
    have identifier : Ident.isValid Schema.idColumn = true := by decide
    simp only [Schema.entityTable, List.cons_append, List.mem_cons, List.mem_append, List.mem_map] at hc
    rcases hc with rfl | ⟨a, ha, rfl⟩ | ⟨r, hr, rfl⟩
    · exact identifier
    · exact parts.attributes a ha
    · exact (parts.relations r hr).2
  · obtain ⟨f, hf, target⟩ := known e he r hr
    rcases List.mem_pair.1 hc with rfl | rfl
    · exact ids _ (contextColumn_mem he)
    · exact ids _ (target ▸ named.junctionTarget_mem he hf hr target)
  · simp only [Schema.relationships, List.mem_append, List.mem_map, List.mem_filter, List.mem_singleton] at hc
    rcases hc with ⟨_, ⟨⟨f, hf, rfl⟩, _⟩, rfl⟩ | rfl
    · exact ids _ (contextColumn_mem hf)
    · exact ids _ (contextColumn_mem he)

theorem columns_valid (known : m.TargetsKnown) :
    (∀ t ∈ m.tables, ∀ c ∈ t.columns, Ident.isValid c.name = true) ↔
      ∀ column ∈ m.idColumns, Ident.isValid column = true := by
  constructor
  · intro valid column hcolumn
    obtain ⟨t, ht, c, hc, rfl⟩ := named.idColumn_listed hcolumn
    exact valid t ht c hc
  · intro ids t ht c hc
    exact named.column_valid known ids ht hc

theorem tables_apart (known : m.TargetsKnown) :
    Compile.checkEach Compile.checkTable [] m.tables = .ok () ↔ m.TablesApart := by
  have perm := named.tableNames_perm
  have apart : (m.tables.map (Text.lower ·.name)).Nodup ↔ (m.tableNames.map Text.lower).Nodup := by
    rw [← (perm.map Text.lower).nodup_iff, List.map_map]
    rfl
  have valid : (∀ t ∈ m.tables, Ident.isValid t.name = true) ↔ ∀ name ∈ m.tableNames, Ident.isValid name = true := by
    simp [← perm.mem_iff]
  rw [Compile.tables_ok, apart, forall₂_and, valid, named.columns_valid known]
  exact ⟨fun ⟨⟨names, columns⟩, apart⟩ => ⟨apart, names, columns⟩, fun h => ⟨⟨h.tables, h.columns⟩, h.apart⟩⟩

end WellNamed

theorem compiles_iff {m : Model} : m.Compiles ↔ m.WellFormed := by
  constructor
  · intro compiles
    have targets := Compile.checkTargets_ok.1 compiles.targets
    exact ⟨compiles.wellNamed, targets, (compiles.wellNamed.tables_apart targets).1 compiles.tables⟩
  · intro formed
    exact ⟨Compile.entities_ok.2 formed.named, Compile.checkTargets_ok.2 formed.targets,
      (formed.named.tables_apart formed.targets).2 formed.tables⟩

end Model

/-! ### What an error says -/

namespace CompileError

inductive OfRelations (entity : Name) (relations : List Relation) : CompileError → Prop where
  | name {r : Relation} {fault : IdentFault} (mem : r ∈ relations) (bad : Ident.fault? r.name.text = some fault) :
      OfRelations entity relations (.badIdentifier ⟨"relation of " ++ entity.text, r.name.text, fault⟩)
  | repeated {first r : Relation} (two : [first, r].Sublist relations) (same : first.name.key = r.name.key) :
      OfRelations entity relations (.duplicateRelation entity.text r.name.text)
  | column {r : Relation} {fault : IdentFault} (mem : r ∈ relations) (bad : Ident.fault? r.column = some fault) :
      OfRelations entity relations (.badIdentifier ⟨"relation of " ++ entity.text, r.column, fault⟩)

inductive OfAttributes (e : Entity) : CompileError → Prop where
  | name {a : Attribute} {fault : IdentFault} (mem : a ∈ e.attributes)
      (bad : Ident.fault? a.name.text = some fault) :
      OfAttributes e (.badIdentifier ⟨"attribute of " ++ e.name.text, a.name.text, fault⟩)
  | repeated {first a : Attribute} (two : [first, a].Sublist e.attributes) (same : first.name.key = a.name.key) :
      OfAttributes e (.duplicateAttribute e.name.text a.name.text)
  | identifier {a : Attribute} (mem : a ∈ e.attributes) (same : a.name.key = Schema.idColumn) :
      OfAttributes e (.columnConflict e.name.text a.name.text .identifier)
  | relation {a : Attribute} {r : Relation} (mem : a ∈ e.attributes) (hr : r ∈ e.relations)
      (same : Text.lower r.column = a.name.key) :
      OfAttributes e (.columnConflict e.name.text a.name.text (.relation r.name.text))

inductive OfNames (m : Model) : CompileError → Prop where
  | name {e : Entity} {fault : IdentFault} (mem : e ∈ m.entities) (bad : Ident.fault? e.name.text = some fault) :
      OfNames m (.badIdentifier ⟨"entity", e.name.text, fault⟩)
  | repeated {first e : Entity} (two : [first, e].Sublist m.entities) (same : first.name.key = e.name.key) :
      OfNames m (.duplicateEntity e.name.text first.name.text)
  | relations {e : Entity} {error : CompileError} (mem : e ∈ m.entities)
      (wrong : OfRelations e.name e.relations error) : OfNames m error
  | attributes {e : Entity} {error : CompileError} (mem : e ∈ m.entities) (wrong : OfAttributes e error) :
      OfNames m error

inductive OfTargets (m : Model) : CompileError → Prop where
  | unknown {e : Entity} {r : Relation} (mem : e ∈ m.entities) (hr : r ∈ e.relations)
      (none : ∀ f ∈ m.entities, f.name ≠ r.target) :
      OfTargets m (.unknownTarget e.name.text r.name.text r.target.text)

inductive OfTables (m : Model) : CompileError → Prop where
  | name {t : Table} {fault : IdentFault} (mem : t ∈ m.tables) (bad : Ident.fault? t.name = some fault) :
      OfTables m (.badIdentifier ⟨t.kind.word ++ " table", t.name, fault⟩)
  | column {t : Table} {c : Column} {fault : IdentFault} (mem : t ∈ m.tables) (hc : c ∈ t.columns)
      (bad : Ident.fault? c.name = some fault) : OfTables m (.badIdentifier ⟨"column of " ++ t.name, c.name, fault⟩)
  | repeated {first t : Table} (two : [first, t].Sublist m.tables)
      (same : Text.lower first.name = Text.lower t.name) : OfTables m (.tableConflict t.name first.kind t.kind)

end CompileError

namespace Compile

theorem checkIdent_error {name context : String} {error : CompileError}
    (failed : checkIdent name context = .error error) :
    ∃ fault, Ident.fault? name = some fault ∧ error = .badIdentifier ⟨context, name, fault⟩ := by
  unfold checkIdent Ident.check at failed
  cases bad : Ident.fault? name with
  | none => simp [bad, Except.mapError] at failed
  | some fault => exact ⟨fault, rfl, by simpa [bad, Except.mapError] using failed.symm⟩

theorem checkColumn_error {entity : Name} {relations : List Relation} {column : String} {error : CompileError}
    (failed : checkColumn entity relations column = .error error) :
    (Text.lower column = Schema.idColumn ∧ error = .columnConflict entity.text column .identifier) ∨
      ∃ r ∈ relations, Text.lower r.column = Text.lower column ∧
        error = .columnConflict entity.text column (.relation r.name.text) := by
  unfold checkColumn origin? at failed
  split at failed
  · next origin found =>
    cases failed
    split at found
    · next identifier =>
      cases found
      exact .inl ⟨identifier, rfl⟩
    · obtain ⟨r, first, rfl⟩ := Option.map_eq_some_iff.1 found
      have same : Text.lower r.column = Text.lower column := by simpa using List.find?_some first
      exact .inr ⟨r, List.mem_of_find?_eq_some first, same, rfl⟩
  · cases failed

/-- A part at fault, and the parts before it. -/
theorem checkEach_error {α : Type} {check : List α → α → Except CompileError Unit} {xs : List α}
    {error : CompileError} (failed : checkEach check [] xs = .error error) :
    ∃ before x, (∀ b ∈ before, [b, x].Sublist xs) ∧ x ∈ xs ∧ check before x = .error error := by
  have after : ∀ passed, checkEach check passed xs = .error error →
      ∃ before x after, xs = before ++ x :: after ∧ check (passed ++ before) x = .error error := by
    clear failed
    induction xs with
    | nil => exact fun _ failed => nomatch failed
    | cons x rest ih =>
      intro passed failed
      rcases seq_eq_error.1 failed with here | ⟨_, later⟩
      · exact ⟨[], x, rest, rfl, by simpa using here⟩
      · obtain ⟨before, y, after, rfl, wrong⟩ := ih _ later
        exact ⟨x :: before, y, after, rfl, by simpa using wrong⟩
  obtain ⟨before, x, rest, rfl, wrong⟩ := after [] failed
  refine ⟨before, x, fun b hb => ?_, by simp, wrong⟩
  exact (List.singleton_sublist.2 hb).append (List.singleton_sublist.2 List.mem_cons_self)

theorem relations_error {entity : Name} {relations : List Relation} {error : CompileError}
    (failed : checkEach (checkRelation entity) [] relations = .error error) :
    error.OfRelations entity relations := by
  obtain ⟨before, r, two, hr, wrong⟩ := checkEach_error failed
  rcases seq_eq_error.1 wrong with name | ⟨_, wrong⟩
  · obtain ⟨fault, bad, rfl⟩ := checkIdent_error name
    exact .name hr bad
  · split at wrong
    · next old =>
      obtain ⟨b, hb, same⟩ := List.any_eq_true.1 old
      cases wrong
      exact .repeated (two b hb) (of_decide_eq_true same)
    · next new =>
      rcases seq_eq_error.1 wrong with column | ⟨_, conflict⟩
      · obtain ⟨fault, bad, rfl⟩ := checkIdent_error column
        exact .column hr bad
      · -- No other name leads to the same column, so there is no conflict once the name has passed.
        have fresh : ∀ b ∈ before, b.name.key ≠ r.name.key := by simpa using new
        rcases checkColumn_error conflict with ⟨identifier, _⟩ | ⟨b, hb, same, _⟩
        · exact absurd identifier r.column_ne_id
        · exact absurd (Relation.lower_column_inj.1 same) (fresh b hb)

theorem attributes_error {e : Entity} {error : CompileError}
    (failed : checkEach (checkAttribute e) [] e.attributes = .error error) : error.OfAttributes e := by
  obtain ⟨before, a, two, ha, wrong⟩ := checkEach_error failed
  rcases seq_eq_error.1 wrong with name | ⟨_, wrong⟩
  · obtain ⟨fault, bad, rfl⟩ := checkIdent_error name
    exact .name ha bad
  · split at wrong
    · next old =>
      obtain ⟨b, hb, same⟩ := List.any_eq_true.1 old
      cases wrong
      exact .repeated (two b hb) (of_decide_eq_true same)
    · rcases checkColumn_error wrong with ⟨same, rfl⟩ | ⟨r, hr, same, rfl⟩
      · exact .identifier ha same
      · exact .relation ha hr same

theorem entities_error {m : Model} {error : CompileError}
    (failed : checkEach checkEntity [] m.entities = .error error) : error.OfNames m := by
  obtain ⟨before, e, two, he, wrong⟩ := checkEach_error failed
  rcases seq_eq_error.1 wrong with name | ⟨_, wrong⟩
  · obtain ⟨fault, bad, rfl⟩ := checkIdent_error name
    exact .name he bad
  · split at wrong
    · next first found =>
      have same : first.name.key = e.name.key := by simpa using List.find?_some found
      cases wrong
      exact .repeated (two first (List.mem_of_find?_eq_some found)) same
    · rcases seq_eq_error.1 wrong with relations | ⟨_, attributes⟩
      · exact .relations he (relations_error relations)
      · exact .attributes he (attributes_error attributes)

theorem targets_error {m : Model} {error : CompileError} (failed : checkTargets m = .error error) :
    error.OfTargets m := by
  obtain ⟨_, e, _, entities, _, wrong⟩ := forM_eq_error.1 failed
  obtain ⟨_, r, _, relations, _, wrong⟩ := forM_eq_error.1 wrong
  split at wrong
  · cases wrong
  · next none =>
    have unknown : ∀ f ∈ m.entities, f.name.text ≠ r.target.text := by simpa [Model.entity?] using none
    cases wrong
    exact .unknown (by simp [entities]) (by simp [relations]) fun f hf same => unknown f hf (congrArg _ same)

theorem tables_error {m : Model} {error : CompileError} (failed : checkEach checkTable [] m.tables = .error error) :
    error.OfTables m := by
  obtain ⟨before, t, two, ht, wrong⟩ := checkEach_error failed
  rcases seq_eq_error.1 wrong with name | ⟨_, wrong⟩
  · obtain ⟨fault, bad, rfl⟩ := checkIdent_error name
    exact .name ht bad
  · rcases seq_eq_error.1 wrong with columns | ⟨_, wrong⟩
    · obtain ⟨_, c, _, listed, _, column⟩ := forM_eq_error.1 columns
      obtain ⟨fault, bad, rfl⟩ := checkIdent_error column
      exact .column ht (by simp [listed]) bad
    · split at wrong
      · next first found =>
        have same : Text.lower first.name = Text.lower t.name := by simpa using List.find?_some found
        cases wrong
        exact .repeated (two first (List.mem_of_find?_eq_some found)) same
      · cases wrong

end Compile

/-- A model compiles just if it is well-formed. The error for another one says what is wrong with its names, or else
with its targets, or else with its generated tables. -/
theorem compile_exact (m : Model) :
    ((∃ s, Schema.ofModel m = .ok s) ↔ m.WellFormed) ∧
    ∀ error, Schema.ofModel m = .error error →
      (¬ m.WellNamed ∧ error.OfNames m) ∨
      (m.WellNamed ∧ ¬ m.TargetsKnown ∧ error.OfTargets m) ∨
      (m.WellNamed ∧ m.TargetsKnown ∧ ¬ m.TablesApart ∧ error.OfTables m) := by
  constructor
  · simp only [ofModel_ok, exists_eq_left, Model.compiles_iff]
  · intro error failed
    unfold Schema.ofModel at failed
    rcases seq_eq_error.1 failed with names | ⟨named, failed⟩
    · refine .inl ⟨fun named => ?_, Compile.entities_error names⟩
      exact nomatch (Compile.entities_ok.2 named).symm.trans names
    have named := Compile.entities_ok.1 named
    rcases seq_eq_error.1 failed with targets | ⟨known, failed⟩
    · refine .inr (.inl ⟨named, fun known => ?_, Compile.targets_error targets⟩)
      exact nomatch (Compile.checkTargets_ok.2 known).symm.trans targets
    have known := Compile.checkTargets_ok.1 known
    rcases seq_eq_error.1 failed with tables | ⟨_, failed⟩
    · refine .inr (.inr ⟨named, known, fun apart => ?_, Compile.tables_error tables⟩)
      exact nomatch ((named.tables_apart known).2 apart).symm.trans tables
    · cases failed

def Sample.clash : Model where
  name := none
  entities :=
    [ { name := ⟨"A", by decide⟩
        attributes := []
        relations := [⟨⟨"B_C", by decide⟩, ⟨"A_B", by decide⟩⟩] },
      { name := ⟨"A_B", by decide⟩
        attributes := []
        relations := [⟨⟨"C", by decide⟩, ⟨"A", by decide⟩⟩] } ]

theorem compile_exact_clash :
    Schema.ofModel Sample.clash = .error (.tableConflict "relation_A_B_C" .junction .junction) ∧
    Sample.clash.WellNamed ∧ Sample.clash.TargetsKnown ∧ ¬ Sample.clash.TablesApart := by
  have refused : Schema.ofModel Sample.clash = .error (.tableConflict "relation_A_B_C" .junction .junction) := by
    decide +kernel
  refine ⟨refused, ?_⟩
  rcases (compile_exact Sample.clash).2 _ refused with ⟨_, names⟩ | ⟨_, _, targets⟩ | ⟨named, known, clash, _⟩
  · cases names with
    | relations _ wrong => cases wrong
    | attributes _ wrong => cases wrong
  · cases targets
  · exact ⟨named, known, clash⟩

end TreeStore
