import TreeStore.Proofs.Store.Registry

/-! Databases in which some of a model's statements have been applied, in whatever order: some of its tables are there
without rows, some of its sequences, and some of the hierarchy is registered. Applying another statement leads to a
database of that kind. -/

namespace TreeStore

/-- What of a model is there: tables, sequences, and what the hierarchy's table holds. -/
structure Founding where
  tables : List Table := []
  sequences : List String := []
  hierarchy : Hierarchy := .empty

namespace Founding

section Data

variable {V : Type} (vs : ValueSystem V)

def table (f : Founding) (t : Table) : StoredTable V :=
  if t = Schema.registry then Database.registryOf vs f.hierarchy else Database.stored vs t

def database (f : Founding) : Database V := ⟨f.tables.map (f.table vs), f.sequences.map (·, 1)⟩

end Data

def addSequence (sequence? : Option String) (f : Founding) : Founding :=
  match sequence? with
  | some q => if q ∈ f.sequences then f else { f with sequences := f.sequences ++ [q] }
  | none => f

def addTable (t : Table) (f : Founding) : Founding :=
  if t ∈ f.tables then f else { f with tables := f.tables ++ [t] }

def create (f : Founding) (t : Table) : Founding := (f.addSequence t.sequence?).addTable t

def enter (f : Founding) (e : HierarchyEntry) : Founding := { f with hierarchy := f.hierarchy.insert e }

structure Of (m : Model) (f : Founding) : Prop where
  tables : f.tables ⊆ m.tables
  tablesOnce : f.tables.Nodup
  sequences : f.sequences ⊆ m.tables.filterMap (·.sequence?)
  sequencesOnce : f.sequences.Nodup
  entries : f.hierarchy.entries ⊆ m.hierarchyEntries
  unregistered : Schema.registry ∉ f.tables → f.hierarchy = .empty

section Data

variable {f : Founding} {t u : Table}

@[simp] theorem addSequence_tables (q : Option String) : (f.addSequence q).tables = f.tables := by
  unfold addSequence
  split
  · split <;> rfl
  · rfl

@[simp] theorem addSequence_hierarchy (q : Option String) : (f.addSequence q).hierarchy = f.hierarchy := by
  unfold addSequence
  split
  · split <;> rfl
  · rfl

@[simp] theorem addTable_sequences : (f.addTable t).sequences = f.sequences := by
  unfold addTable
  split <;> rfl

@[simp] theorem addTable_hierarchy : (f.addTable t).hierarchy = f.hierarchy := by
  unfold addTable
  split <;> rfl

theorem mem_addTable : u ∈ (f.addTable t).tables ↔ u ∈ f.tables ∨ u = t := by
  unfold addTable
  split
  · next old => exact ⟨.inl, fun either => either.elim id fun eq => eq ▸ old⟩
  · simp

theorem mem_addSequence {q : String} {sequence? : Option String} :
    q ∈ (f.addSequence sequence?).sequences ↔ q ∈ f.sequences ∨ sequence? = some q := by
  unfold addSequence
  split
  · next q' =>
    split
    · next old => exact ⟨.inl, fun either => either.elim id fun eq => Option.some.inj eq ▸ old⟩
    · simp [eq_comm]
  · simp

@[simp] theorem create_hierarchy : (f.create t).hierarchy = f.hierarchy := by simp [create]

theorem mem_create : u ∈ (f.create t).tables ↔ u ∈ f.tables ∨ u = t := by simp [create, mem_addTable]

theorem mem_create_sequences {q : String} :
    q ∈ (f.create t).sequences ↔ q ∈ f.sequences ∨ t.sequence? = some q := by simp [create, mem_addSequence]

end Data

namespace Of

variable {m : Model} {f : Founding} (founds : f.Of m)
include founds

theorem addSequence {t : Table} (mem : t ∈ m.tables) : (f.addSequence t.sequence?).Of m := by
  cases sequence : t.sequence? with
  | none => exact founds
  | some q =>
    unfold Founding.addSequence
    by_cases old : q ∈ f.sequences
    · simpa only [if_pos old] using founds
    · simp only [if_neg old]
      refine { founds with
        sequences := ?_
        sequencesOnce := ?_ }
      · have known : q ∈ m.tables.filterMap (·.sequence?) := List.mem_filterMap.2 ⟨t, mem, sequence⟩
        exact List.append_subset.2 ⟨founds.sequences, by simpa using known⟩
      · simpa [List.nodup_append] using ⟨founds.sequencesOnce, fun x hx eq => old (eq ▸ hx)⟩

theorem addTable {t : Table} (mem : t ∈ m.tables) : (f.addTable t).Of m := by
  unfold Founding.addTable
  by_cases old : t ∈ f.tables
  · simpa only [if_pos old] using founds
  · simp only [if_neg old]
    refine { founds with
      tables := List.append_subset.2 ⟨founds.tables, by simpa using mem⟩
      tablesOnce := ?_
      unregistered := fun none => founds.unregistered fun there => none (List.mem_append_left _ there) }
    simpa [List.nodup_append] using ⟨founds.tablesOnce, fun x hx eq => old (eq ▸ hx)⟩

theorem create {t : Table} (mem : t ∈ m.tables) : (f.create t).Of m :=
  (founds.addSequence mem).addTable mem

theorem enter {e : HierarchyEntry} (mem : e ∈ m.hierarchyEntries) (there : Schema.registry ∈ f.tables) :
    (f.enter e).Of m :=
  { founds with
    entries := fun _ he => (Hierarchy.mem_insert he).elim (fun old => founds.entries old) fun eq => eq ▸ mem
    unregistered := fun none => absurd there none }

end Of

theorem nothing_of (m : Model) : ({} : Founding).Of m where
  tables := List.nil_subset _
  tablesOnce := .nil
  sequences := List.nil_subset _
  sequencesOnce := .nil
  entries := List.nil_subset _
  unregistered := fun _ => rfl

/-! ### Its database -/

section Steps

variable {V : Type} {vs : ValueSystem V} {m : Model} {f : Founding} {t : Table}

@[simp] theorem table_name (f : Founding) (t : Table) : (f.table vs t).name = t.name := by
  unfold table
  split
  · next registry => rw [registry]; rfl
  · rfl

@[simp] theorem addTable_table (u t : Table) : (f.addTable u).table vs t = f.table vs t := by simp [table]

variable (compiles : m.Compiles) (founds : f.Of m)
include compiles founds

theorem table? (mem : t ∈ m.tables) :
    (f.database vs).table? t.name = if t ∈ f.tables then some (f.table vs t) else none := by
  have named : ∀ u ∈ f.tables, sameName u.name t.name = true ↔ u = t := fun u hu =>
    ⟨compiles.table_unique (founds.tables hu) mem, fun eq => eq ▸ sameName_self _⟩
  have search : (f.database vs).table? t.name =
      (f.tables.find? fun u => sameName u.name t.name).map (f.table vs) := by
    simp only [Database.table?, database, List.find?_map, Function.comp_def, table_name]
  rw [search]
  split
  · next there =>
    cases found : f.tables.find? fun u => sameName u.name t.name with
    | none => exact absurd (sameName_self t.name) (List.find?_eq_none.1 found t there)
    | some u =>
      have same := List.find?_some (p := fun u : Table => sameName u.name t.name) found
      rw [(named u (List.mem_of_find?_eq_some found)).1 same, Option.map_some]
  · next absent =>
    have none : f.tables.find? (fun u => sameName u.name t.name) = none :=
      List.find?_eq_none.2 fun u hu same => absent ((named u hu).1 same ▸ hu)
    rw [none, Option.map_none]

theorem hasSequence {q : String} (mem : t ∈ m.tables) (sequence : t.sequence? = some q) :
    (f.database vs).hasSequence q = decide (q ∈ f.sequences) := by
  have named : ∀ q' ∈ f.sequences, sameName q' q = true ↔ q' = q := by
    intro q' hq'
    obtain ⟨u, hu, other⟩ := List.mem_filterMap.1 (founds.sequences hq')
    refine ⟨fun same => ?_, fun eq => by rw [eq, sameName_self]⟩
    obtain rfl := compiles.sequence_unique mem hu sequence other same
    exact Option.some.inj (other.symm.trans sequence)
  rw [Bool.eq_iff_iff, decide_eq_true_eq]
  simp only [Database.hasSequence, database, List.any_map, List.any_eq_true, Function.comp_apply]
  constructor
  · rintro ⟨q', hq', same⟩
    exact (named q' hq').1 same ▸ hq'
  · exact fun there => ⟨q, there, sameName_self q⟩

theorem database_addSequence (mem : t ∈ m.tables) :
    (f.database vs).addSequence t.sequence? = (f.addSequence t.sequence?).database vs := by
  cases sequence : t.sequence? with
  | none => rfl
  | some q =>
    simp only [Database.addSequence, addSequence, hasSequence compiles founds mem sequence]
    by_cases old : q ∈ f.sequences
    · simp [old]
    · have same (t : Table) : ({ f with sequences := f.sequences ++ [q] } : Founding).table vs t = f.table vs t := rfl
      simp [old, database, same]

omit compiles in
/-- A new table has no rows, also if it is the hierarchy's. -/
theorem database_addTable (absent : t ∉ f.tables) :
    { f.database vs with tables := (f.database vs).tables ++ [Database.stored vs t] } = (f.addTable t).database vs := by
  have same : Database.stored vs t = f.table vs t := by
    unfold table
    split
    · next registry =>
      subst registry
      rw [founds.unregistered absent]
      rfl
    · rfl
  have kept : f.table vs = (f.addTable t).table vs := funext fun u => (addTable_table t u).symm
  rw [same]
  simp only [database, ← kept, addTable_sequences]
  simp [addTable, absent]

theorem create_new (mem : t ∈ m.tables) (absent : t ∉ f.tables) :
    { (f.database vs).addSequence t.sequence? with tables := (f.database vs).tables ++ [Database.stored vs t] } =
      (f.create t).database vs := by
  have new : t ∉ (f.addSequence t.sequence?).tables := by simpa using absent
  have tables : ((f.addSequence t.sequence?).database vs).tables = (f.database vs).tables := by
    rw [← database_addSequence compiles founds mem, Database.addSequence_tables]
  rw [create, ← database_addTable (founds.addSequence mem) new, tables, database_addSequence compiles founds mem]

/-- Whatever comes of a creation, it leads to a database of this kind. -/
theorem create_leads (ideal : vs.Ideal) (mem : t ∈ m.tables) :
    (∃ error, (f.database vs).create vs t = (.error error, (f.addSequence t.sequence?).database vs)) ∨
      (f.database vs).create vs t = (.ok (), (f.create t).database vs) := by
  rcases Database.create_cases vs ideal (fun c hc => compiles.table_types mem hc) (f.database vs) with
    ⟨error, failed⟩ | ⟨absent, created⟩
  · exact .inl ⟨error, by rw [failed, database_addSequence compiles founds mem]⟩
  · rw [table? compiles founds mem] at absent
    have new : t ∉ f.tables := fun old => by simp [old] at absent
    exact .inr (by rw [created, create_new compiles founds mem new])

/-- Once the tables before it are there, a table is created, unless it is there already. -/
theorem create_ends (ideal : vs.Ideal) {before after : List Table} (split : m.tables = before ++ t :: after)
    (there : before ⊆ f.tables) : (f.database vs).create vs t =
      (if t ∈ f.tables then Database.failure .alreadyExists else .ok (), (f.create t).database vs) := by
  have mem : t ∈ m.tables := by simp [split]
  have earlier : ∀ u ∈ before, u ∈ m.tables := fun u hu => by simp [split, hu]
  have creatable := compiles.tables_creatable
  have keys := compiles.table_keys
  rw [split] at creatable keys
  rw [List.map_append, List.map_cons, List.nodup_append] at keys
  have creatable : t.Creatable before := Table.creatableAfter_split creatable
  have apart : ∀ u ∈ before, sameName u.name t.name = false := fun u hu => by
    rw [Bool.eq_false_iff, ne_eq, sameName_iff]
    exact keys.2.2 _ (List.mem_map_of_mem hu) _ List.mem_cons_self
  have referenced : ∀ u ∈ before, u.HasIdKey → (f.database vs).table? u.name = some (Database.stored vs u) := by
    intro u hu key
    -- The hierarchy's table may hold rows already, but nothing refers to it.
    have other : u ≠ Schema.registry := by
      rintro rfl
      cases key.1
    rw [table? compiles founds (earlier u hu), if_pos (there hu), table, if_neg other]
  rw [Database.create_eq vs ideal creatable (compiles.columns_distinct mem) apart referenced,
    table? compiles founds mem]
  by_cases old : t ∈ f.tables
  · have same : f.create t = f.addSequence t.sequence? := by simp [create, addTable, old]
    rw [if_pos old, if_pos old, same, database_addSequence compiles founds mem]
    rfl
  · rw [if_neg old, if_neg old, create_new compiles founds mem old]
    rfl

theorem registryTable_found (there : Schema.registry ∈ f.tables) :
    (f.database vs).table? Schema.registryTable = some (Database.registryOf vs f.hierarchy) := by
  have name : Schema.registryTable = Schema.registry.name := rfl
  rw [name, table? compiles founds (Model.Compiles.registry_mem m), if_pos there, table, if_pos rfl]

theorem database_enterAll (es : List HierarchyEntry) : Database.enterAll vs f.hierarchy es (f.database vs) =
    ({ f with hierarchy := es.foldl Hierarchy.insert f.hierarchy } : Founding).database vs := by
  have name : Schema.registry.name = Schema.registryTable := rfl
  have named : ∀ t ∈ f.tables, sameName t.name Schema.registryTable = true ↔ t = Schema.registry := by
    intro t ht
    rw [← name]
    exact ⟨compiles.table_unique (founds.tables ht) (Model.Compiles.registry_mem m), fun eq => by simp [eq]⟩
  have added : ∀ h e, h.has e.parent e.child = false →
      (({ f with hierarchy := h } : Founding).database vs).addRow Schema.registryTable (Database.entryRow vs e) =
        ({ f with hierarchy := h.insert e } : Founding).database vs := by
    intro h e new
    have tables : (f.tables.map (table vs { f with hierarchy := h })).map (fun u : StoredTable V =>
        if sameName u.name Schema.registryTable then { u with rows := u.rows ++ [Database.entryRow vs e] } else u) =
        f.tables.map (table vs { f with hierarchy := h.insert e }) := by
      rw [List.map_map]
      apply List.map_congr_left
      intro t ht
      rw [Function.comp_apply, table_name]
      by_cases registry : t = Schema.registry
      · rw [if_pos ((named t ht).2 registry)]
        have name : Schema.registry.name = (Database.stored vs Schema.registry).name := rfl
        simpa [table, registry, Database.registryOf, Hierarchy.insert_entries_of_new new] using name
      · rw [if_neg fun same => registry ((named t ht).1 same)]
        simp [table, registry]
    rw [Database.addRow, database, tables]
    rfl
  exact Database.enterAll_eq added es f.hierarchy

/-- Whatever comes of a registration, it enters the entry into the hierarchy or changes nothing. -/
theorem register_leads (ideal : vs.Ideal) (enforce : Bool) (e : HierarchyEntry) :
    (Registry.register (Database.store vs enforce) e (f.database vs)).2 =
      (if Schema.registry ∈ f.tables then f.enter e else f).database vs := by
  by_cases there : Schema.registry ∈ f.tables
  · rw [Database.register_eq ideal (registryTable_found compiles founds there), if_pos there]
    exact database_enterAll compiles founds [e]
  · have none : (f.database vs).table? Schema.registry.name = none := by
      rw [table? compiles founds (Model.Compiles.registry_mem m), if_neg there]
    have table : (Registry.selectRelation e.parent e.child).table = Schema.registry.name := rfl
    rw [if_neg there]
    simp only [Registry.register, Database.store, Database.answer, Database.select, table, none]
    rfl

end Steps

end Founding

end TreeStore
