import Mathlib.Data.Bool.Count
import TreeStore.Proofs.Schema.GeneratedNames
import TreeStore.Proofs.Store.Founding

/-! Applying the schema of a model that compiles. In a database where some of it is there already, what is missing is
added, in order, and the rest is passed over. In an empty one nothing fails, every table is there with no rows
afterwards, and the hierarchy's table holds the model's hierarchy. -/

namespace TreeStore

namespace Model

def dataTables (m : Model) : List Table :=
  Schema.entityTables [] m.creationOrder ++ m.junctions ++ m.relationshipTables

theorem tables_eq (m : Model) : m.tables = Schema.registry :: m.dataTables := rfl

end Model

namespace Founding

variable {V : Type} {vs : ValueSystem V} {m : Model} {f : Founding}

structure Full (m : Model) (f : Founding) : Prop where
  tables : m.tables ⊆ f.tables
  sequences : m.tables.filterMap (·.sequence?) ⊆ f.sequences
  entries : ∀ e ∈ m.hierarchyEntries, f.hierarchy.has e.parent e.child = true

def complete (m : Model) (f : Founding) : Founding :=
  { m.tables.foldl create f with hierarchy := m.hierarchyEntries.foldl Hierarchy.insert f.hierarchy }

theorem mem_creates {ts : List Table} {u : Table} : u ∈ (ts.foldl create f).tables ↔ u ∈ f.tables ∨ u ∈ ts := by
  induction ts generalizing f with
  | nil => simp
  | cons t rest ih => simp [ih, mem_create, or_assoc]

theorem mem_creates_sequences {ts : List Table} {q : String} :
    q ∈ (ts.foldl create f).sequences ↔ q ∈ f.sequences ∨ q ∈ ts.filterMap (·.sequence?) := by
  induction ts generalizing f with
  | nil => simp
  | cons t rest ih =>
    rw [List.foldl_cons, ih, mem_create_sequences, List.filterMap_cons]
    cases t.sequence? <;> simp [or_assoc, eq_comm]

theorem creates_hierarchy (ts : List Table) : (ts.foldl create f).hierarchy = f.hierarchy := by
  induction ts generalizing f with
  | nil => rfl
  | cons t rest ih => simp [ih]

theorem creates_of {ts : List Table} (known : ts ⊆ m.tables) (founds : f.Of m) : (ts.foldl create f).Of m := by
  induction ts generalizing f with
  | nil => exact founds
  | cons t rest ih =>
    exact ih (fun u hu => known (List.mem_cons_of_mem _ hu)) (founds.create (known List.mem_cons_self))

theorem creates_there {ts : List Table} (tables : ts ⊆ f.tables)
    (sequences : ts.filterMap (·.sequence?) ⊆ f.sequences) : ts.foldl create f = f := by
  induction ts with
  | nil => rfl
  | cons t rest ih =>
    have sequence : f.addSequence t.sequence? = f := by
      cases eq : t.sequence? with
      | none => rfl
      | some q =>
        have listed : q ∈ (t :: rest).filterMap (·.sequence?) := List.mem_filterMap.2 ⟨t, List.mem_cons_self, eq⟩
        exact if_pos (sequences listed)
    have same : f.create t = f := by
      rw [create, sequence]
      exact if_pos (tables List.mem_cons_self)
    rw [List.foldl_cons, same]
    refine ih (fun u hu => tables (List.mem_cons_of_mem _ hu)) fun q hq => sequences ?_
    obtain ⟨u, hu, eq⟩ := List.mem_filterMap.1 hq
    exact List.mem_filterMap.2 ⟨u, List.mem_cons_of_mem _ hu, eq⟩

/-- Tables that are all new are added as they come, and so are their sequences. -/
theorem creates_new {ts : List Table} (tables : (f.tables ++ ts).Nodup)
    (sequences : (f.sequences ++ ts.filterMap (·.sequence?)).Nodup) : ts.foldl create f =
      { f with tables := f.tables ++ ts, sequences := f.sequences ++ ts.filterMap (·.sequence?) } := by
  induction ts generalizing f with
  | nil => simp
  | cons t rest ih =>
    have created : f.create t = { f with
        tables := f.tables ++ [t], sequences := f.sequences ++ t.sequence?.toList } := by
      have newTable : t ∉ f.tables := fun old =>
        (List.nodup_append.1 tables).2.2 t old t List.mem_cons_self rfl
      cases sequence : t.sequence? with
      | none => simp [create, sequence, addSequence, addTable, newTable]
      | some q =>
        have newSequence : q ∉ f.sequences := fun old =>
          (List.nodup_append.1 sequences).2.2 q old q (by simp [sequence]) rfl
        simp [create, sequence, addSequence, addTable, newTable, newSequence]
    have listed : (t :: rest).filterMap (·.sequence?) = t.sequence?.toList ++ rest.filterMap (·.sequence?) := by
      rw [List.filterMap_cons]
      cases t.sequence? <;> rfl
    rw [listed] at sequences ⊢
    rw [List.foldl_cons, created, ih (by simpa using tables) (by simpa using sequences)]
    simp

theorem Full.complete (full : f.Full m) : f.complete m = f := by
  rw [Founding.complete, creates_there full.tables full.sequences, Hierarchy.foldl_insert_known full.entries]

theorem complete_full (m : Model) (f : Founding) : (f.complete m).Full m where
  tables := fun _ mem => mem_creates.2 (.inr mem)
  sequences := fun _ mem => mem_creates_sequences.2 (.inr mem)
  entries := fun e mem => (Hierarchy.has_foldl_insert _ _ _ _).2 (.inr ⟨e, mem, rfl⟩)

theorem Of.complete (founds : f.Of m) : (f.complete m).Of m :=
  { creates_of (List.Subset.refl _) founds with
    entries := fun _ mem => (Hierarchy.mem_foldl_insert _ mem).elim (fun old => founds.entries old) id
    unregistered := fun none => absurd (mem_creates.2 (.inr (Model.Compiles.registry_mem m))) none }

/-- Creating the first tables of a model where nothing is there adds just these and their sequences. -/
theorem creates_first (compiles : m.Compiles) {before rest : List Table} (split : m.tables = before ++ rest) :
    before.foldl create {} = { tables := before, sequences := before.filterMap (·.sequence?) } := by
  have tables : m.tables.Nodup := compiles.table_keys.of_map
  have sequences := compiles.sequences_distinct.of_map
  rw [split] at tables sequences
  rw [List.filterMap_append] at sequences
  exact creates_new (List.nodup_append.1 tables).1 (List.nodup_append.1 sequences).1

theorem first_database (ts : List Table) :
    ({ tables := ts, sequences := ts.filterMap (·.sequence?) } : Founding).database vs = Database.laidOut vs ts := by
  have empty : table vs { tables := ts, sequences := ts.filterMap (·.sequence?) } = Database.stored vs := by
    funext t
    unfold table
    split
    · next registry => rw [registry]; rfl
    · rfl
  rw [database, empty]
  rfl

section Run

variable (compiles : m.Compiles) (ideal : vs.Ideal) (enforce : Bool)
include compiles ideal

theorem create_step {before after : List Table} {t : Table} (split : m.tables = before ++ t :: after) (founds : f.Of m)
    (there : before ⊆ f.tables) (report : ApplyReport) :
    (Database.store vs enforce).applyStatement report (f.database vs) (.create t) =
      (if t ∈ f.tables then { report with
          alreadyExisted := report.alreadyExisted ++ [((Statement.create t).label, .failed .alreadyExists none)] }
        else { report with executed := report.executed ++ [(Statement.create t).label] },
        (f.create t).database vs) := by
  have created := create_ends compiles founds ideal split there
  simp only [Store.applyStatement, Database.store, Database.answer, created]
  by_cases old : t ∈ f.tables
  · simp [old, Database.failure, StoreError.isAlreadyExists]
  · simp [old]

/-- In the order of a schema, the tables that are not there are created, and the others are passed over. -/
theorem creates_run {before rest : List Table} (split : m.tables = before ++ rest) (founds : f.Of m)
    (there : before ⊆ f.tables) (report : ApplyReport) :
    (rest.map Statement.create).foldl (fun (p : ApplyReport × Database V) stmt =>
        (Database.store vs enforce).applyStatement p.1 p.2 stmt) (report, f.database vs) =
      ({ report with
          executed := report.executed ++ (rest.filter (· ∉ f.tables)).map (Statement.create · |>.label)
          alreadyExisted := report.alreadyExisted ++ (rest.filter (· ∈ f.tables)).map fun t =>
            ((Statement.create t).label, .failed .alreadyExists none) },
        (rest.foldl create f).database vs) := by
  -- Tables are there once only, so creating one makes no difference to which of the others are there.
  induction rest generalizing f before report with
  | nil => simp
  | cons t rest ih =>
    have mem : t ∈ m.tables := by simp [split]
    have distinct : (t :: rest).Nodup := by
      have once : m.tables.Nodup := compiles.table_keys.of_map
      rw [split, List.nodup_append] at once
      exact once.2.1
    have others : ∀ u ∈ rest, u ∈ (f.create t).tables ↔ u ∈ f.tables := fun u hu => by
      have other : u ≠ t := fun eq => (List.nodup_cons.1 distinct).1 (eq ▸ hu)
      simp [mem_create, other]
    have absent : rest.filter (· ∉ (f.create t).tables) = rest.filter (· ∉ f.tables) :=
      List.filter_congr fun u hu => by simp [others u hu]
    have present : rest.filter (· ∈ (f.create t).tables) = rest.filter (· ∈ f.tables) :=
      List.filter_congr fun u hu => by simp [others u hu]
    have later := ih (by simpa using split : m.tables = (before ++ [t]) ++ rest) (founds.create mem) fun u hu => by
      rcases List.mem_append.1 hu with hu | hu
      · exact mem_create.2 (.inl (there hu))
      · exact mem_create.2 (.inr (List.mem_singleton.1 hu))
    rw [List.map_cons, List.foldl_cons, List.foldl_cons, create_step compiles ideal enforce split founds there, later,
      absent, present, List.filter_cons, List.filter_cons]
    by_cases old : t ∈ f.tables
    · simp [old]
    · simp [old]

theorem apply_eq (founds : f.Of m) : (Database.store vs enforce).apply m.schema.statements (f.database vs) =
    ({ executed := (m.tables.filter (· ∉ f.tables)).map (Statement.create · |>.label)
       alreadyExisted := (m.tables.filter (· ∈ f.tables)).map fun t =>
         ((Statement.create t).label, .failed .alreadyExists none)
       registered := (steps Hierarchy.enter m.hierarchyEntries f.hierarchy).1.count true
       registrySkipped := (steps Hierarchy.enter m.hierarchyEntries f.hierarchy).1.count false },
      (f.complete m).database vs) := by
  have all : m.tables = [] ++ m.tables := rfl
  have created := creates_run compiles ideal enforce all founds (List.nil_subset _) {}
  have founds' : (m.tables.foldl create f).Of m := creates_of (List.Subset.refl _) founds
  have there : Schema.registry ∈ (m.tables.foldl create f).tables :=
    mem_creates.2 (.inr (Model.Compiles.registry_mem m))
  have registered := Database.applied_registrations ideal (registryTable_found compiles founds' there) enforce
    m.hierarchyEntries
  rw [database_enterAll compiles founds', creates_hierarchy] at registered
  rw [Store.apply, Model.schema, List.foldl_append, created, registered]
  simp [complete]

/-- Where all is there, nothing is left to do. -/
theorem apply_full (founds : f.Of m) (full : f.Full m) :
    (Database.store vs enforce).apply m.schema.statements (f.database vs) =
      ({ alreadyExisted := m.tables.map fun t => ((Statement.create t).label, .failed .alreadyExists none)
         registrySkipped := m.hierarchyEntries.length }, f.database vs) := by
  have none : m.tables.filter (· ∉ f.tables) = [] := List.filter_eq_nil_iff.2 fun t ht => by simp [full.tables ht]
  have all : m.tables.filter (· ∈ f.tables) = m.tables := List.filter_eq_self.2 fun t ht => by simp [full.tables ht]
  rw [apply_eq compiles ideal enforce founds, none, all, Hierarchy.steps_enter_known full.entries,
    full.complete]
  simp [List.count_eq_zero]

end Run

end Founding

namespace Database

variable {V : Type} (vs : ValueSystem V)

def founded (m : Model) : Database V :=
  withHierarchy vs (m.dataTables.map (stored vs)) (sequencesOf m.tables) m.hierarchy

theorem laidOut_tables (m : Model) : laidOut vs m.tables =
    withHierarchy vs (m.dataTables.map (stored vs)) (sequencesOf m.tables) .empty := rfl

variable {m : Model} (compiles : m.Compiles)
include compiles

theorem dataTables_apart : ∀ t ∈ m.dataTables.map (stored vs), sameName t.name Schema.registryTable = false := by
  intro t mem
  obtain ⟨u, hu, rfl⟩ := List.mem_map.1 mem
  have keys := compiles.table_keys
  rw [m.tables_eq, List.map_cons, List.nodup_cons] at keys
  rw [Bool.eq_false_iff]
  exact fun same => keys.1 (List.mem_map.2 ⟨u, hu, sameName_iff.1 same⟩)

/-- The tables of a model can be created in their order. -/
theorem table_created (ideal : vs.Ideal) {before after : List Table} {t : Table}
    (split : m.tables = before ++ t :: after) :
    (laidOut vs before).create vs t = (.ok (), laidOut vs (before ++ [t])) := by
  have founds : (before.foldl Founding.create {}).Of m :=
    Founding.creates_of (fun u hu => split ▸ List.mem_append_left _ hu) (Founding.nothing_of m)
  have first := Founding.creates_first compiles split
  have next := Founding.creates_first compiles (split.trans (List.append_cons before t after))
  rw [List.foldl_append, List.foldl_cons, List.foldl_nil, first] at next
  rw [first] at founds
  have new : t ∉ before := fun old => by
    have once : m.tables.Nodup := compiles.table_keys.of_map
    rw [split] at once
    exact (List.nodup_append.1 once).2.2 t old t List.mem_cons_self rfl
  have created := Founding.create_ends compiles founds ideal split (List.Subset.refl _)
  rwa [next, Founding.first_database, Founding.first_database, if_neg new] at created

theorem complete_nothing : (({} : Founding).complete m).database vs = founded vs m := by
  have first := Founding.creates_first compiles (List.append_nil m.tables).symm
  have others : ∀ h : Hierarchy, ∀ t ∈ m.dataTables,
      Founding.table vs { tables := m.tables, sequences := m.tables.filterMap (·.sequence?), hierarchy := h } t =
        stored vs t := by
    intro h t mem
    have apart := dataTables_apart vs compiles _ (List.mem_map_of_mem mem)
    have other : t ≠ Schema.registry := by
      rintro rfl
      exact absurd (apart.symm.trans (sameName_self Schema.registryTable)) Bool.false_ne_true
    exact if_neg other
  rw [Founding.complete, first]
  simp only [Founding.database]
  rw [m.tables_eq, List.map_cons, ← m.tables_eq, List.map_congr_left (others _)]
  rfl

/-- Nothing fails, every table is created, and an entry is registered if its pair has not come before. -/
theorem applied_schema (ideal : vs.Ideal) (enforce : Bool) :
    (store vs enforce).apply m.schema.statements {} =
      ({ executed := m.tables.map (Statement.create · |>.label)
         registered := (steps Hierarchy.enter m.hierarchyEntries .empty).1.count true
         registrySkipped := (steps Hierarchy.enter m.hierarchyEntries .empty).1.count false }, founded vs m) := by
  have empty : ({} : Founding).database vs = ({} : Database V) := rfl
  have applied := Founding.apply_eq compiles ideal enforce (Founding.nothing_of m)
  rw [empty, complete_nothing vs compiles] at applied
  simpa using applied

end Database

end TreeStore
