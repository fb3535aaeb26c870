import Mathlib.Data.Bool.Count
import TreeStore.Proofs.Schema.GeneratedNames
import TreeStore.Proofs.Store.Applied

/-! Applying the schema of a model, for the first time, after a time when statements have failed, and again. Whatever
a first time has left undone, a second one does, since every table comes after those that it references; a third one
finds nothing left to do. -/

namespace TreeStore

/-! ### Mishaps -/

/-- What befalls a statement: its requests fail, a table's possibly after its sequence has been created. -/
structure Mishap where
  error : StoreError
  sequence : Bool

namespace Database

section Data

variable {V : Type} (vs : ValueSystem V)

def storeAmid (enforce : Bool) : Option Mishap → Store (Database V)
  | none => store vs enforce
  | some mishap =>
    { answer := fun r db => (.error mishap.error, match r with
        | .create t => if mishap.sequence then db.addSequence t.sequence? else db
        | _ => db) }

def stepAmid (enforce : Bool) (mishap : Nat → Option Mishap) (p : ApplyReport × Database V) (stmt : Statement × Nat) :
    ApplyReport × Database V :=
  (storeAmid vs enforce (mishap stmt.2)).applyStatement p.1 p.2 stmt.1

/-- Applies statements one after another, of which some meet with mishaps, each by its number. -/
def applyAmid (enforce : Bool) (mishap : Nat → Option Mishap) (stmts : List Statement) (db : Database V) :
    ApplyReport × Database V :=
  stmts.zipIdx.foldl (stepAmid vs enforce mishap) ({}, db)

/-- The tables of a schema are there without rows, but for the hierarchy's, and so are its sequences. -/
structure Holds (s : Schema) (h : Hierarchy) (db : Database V) : Prop where
  tables : db.tables.Perm (s.tables.map fun t => if t = Schema.registry then registryOf vs h else stored vs t)
  sequences : db.sequences.Perm (sequencesOf s.tables)

variable {vs}

theorem applyAmid_none (enforce : Bool) (stmts : List Statement) (db : Database V) :
    applyAmid vs enforce (fun _ => none) stmts db = (store vs enforce).apply stmts db := by
  have all : ∀ n p, (stmts.zipIdx n).foldl (stepAmid vs enforce fun _ => none) p =
      stmts.foldl (fun (p : ApplyReport × Database V) stmt => (store vs enforce).applyStatement p.1 p.2 stmt) p := by
    induction stmts with
    | nil => exact fun _ _ => rfl
    | cons stmt rest ih => exact fun n p => ih (n + 1) _
  exact all 0 _

end Data

end Database

namespace Founding

variable {V : Type} {vs : ValueSystem V} {m : Model} {f : Founding}

/-! ### Amid mishaps -/

section Amid

/-- The entries that meet with no mishap, when they are numbered from `n` on. -/
def survivors (mishap : Nat → Option Mishap) (n : Nat) (es : List HierarchyEntry) : List HierarchyEntry :=
  ((es.zipIdx n).filter fun p => (mishap p.2).isNone).map (·.1)

theorem survivors_cons (mishap : Nat → Option Mishap) (n : Nat) (e : HierarchyEntry) (es : List HierarchyEntry) :
    survivors mishap n (e :: es) =
      (if (mishap n).isNone then [e] else []) ++ survivors mishap (n + 1) es := by
  rw [survivors, List.zipIdx_cons, List.filter_cons]
  split <;> rfl

/-- Where nothing before some number meets with a mishap and all from there on does, the first entries survive. -/
theorem survivors_take {mishap : Nat → Option Mishap} {k : Nat} (cut : ∀ n, mishap n = none ↔ n < k) (n : Nat)
    (es : List HierarchyEntry) : survivors mishap n es = es.take (k - n) := by
  induction es generalizing n with
  | nil => simp [survivors]
  | cons e rest ih =>
    rw [survivors_cons, ih]
    by_cases before : n < k
    · have more : k - n = (k - (n + 1)) + 1 := by omega
      simp [(cut n).2 before, more]
    · have past : k - n = 0 := by omega
      have later : k - (n + 1) = 0 := by omega
      have met : mishap n ≠ none := fun none => before ((cut n).1 none)
      simp [met, past, later]

variable (compiles : m.Compiles) (ideal : vs.Ideal) (enforce : Bool) (mishap : Nat → Option Mishap)
include compiles ideal

theorem create_amid (founds : f.Of m) {t : Table} (mem : t ∈ m.tables) (n : Nat) (report : ApplyReport) :
    ∃ f' : Founding, f'.Of m ∧ f'.hierarchy = f.hierarchy ∧ f.tables ⊆ f'.tables ∧
      (Database.stepAmid vs enforce mishap (report, f.database vs) (.create t, n)).2 = f'.database vs := by
  rw [Database.stepAmid, Store.applyStatement_create]
  have created : f.tables ⊆ (f.create t).tables := fun u hu => mem_create.2 (.inl hu)
  cases mishap n with
  | none =>
    rcases create_leads compiles founds ideal mem with ⟨error, failed⟩ | done
    · exact ⟨_, founds.addSequence mem, by simp, by simp, congrArg Prod.snd failed⟩
    · exact ⟨_, founds.create mem, by simp, created, congrArg Prod.snd done⟩
  | some x =>
    cases sequence : x.sequence with
    | false => exact ⟨f, founds, rfl, List.Subset.refl _, by simp [Database.storeAmid, sequence]⟩
    | true =>
      exact ⟨_, founds.addSequence mem, by simp, by simp,
        by simp [Database.storeAmid, sequence, database_addSequence compiles founds mem]⟩

theorem creates_amid {ts : List Table} (known : ts ⊆ m.tables) (founds : f.Of m) (n : Nat) (report : ApplyReport) :
    ∃ f' : Founding, f'.Of m ∧ f'.hierarchy = f.hierarchy ∧ f.tables ⊆ f'.tables ∧
      (((ts.map Statement.create).zipIdx n).foldl (Database.stepAmid vs enforce mishap)
        (report, f.database vs)).2 = f'.database vs := by
  induction ts generalizing f n report with
  | nil => exact ⟨f, founds, rfl, List.Subset.refl _, rfl⟩
  | cons t rest ih =>
    obtain ⟨f', founds', same, grown, first⟩ :=
      create_amid compiles ideal enforce mishap founds (known List.mem_cons_self) n report
    obtain ⟨f'', founds'', same', grown', all⟩ :=
      ih (fun u hu => known (List.mem_cons_of_mem _ hu)) founds' (n + 1) _
    refine ⟨f'', founds'', same'.trans same, fun u hu => grown' (grown hu), ?_⟩
    rw [← all, ← first]
    rfl

theorem register_amid (founds : f.Of m) {e : HierarchyEntry} (mem : e ∈ m.hierarchyEntries) (n : Nat)
    (report : ApplyReport) : ∃ f' : Founding, f'.Of m ∧ f'.tables = f.tables ∧
      f'.hierarchy = (if Schema.registry ∈ f.tables ∧ mishap n = none then f.hierarchy.insert e else f.hierarchy) ∧
      (Database.stepAmid vs enforce mishap (report, f.database vs) (.register e, n)).2 = f'.database vs := by
  rw [Database.stepAmid, Store.applyStatement_register]
  cases mishap n with
  | none =>
    have leads := register_leads compiles founds ideal enforce e
    by_cases there : Schema.registry ∈ f.tables
    · rw [if_pos there] at leads
      exact ⟨f.enter e, founds.enter mem there, rfl, by simp [there, enter], leads⟩
    · rw [if_neg there] at leads
      exact ⟨f, founds, rfl, by simp [there], leads⟩
  | some x => exact ⟨f, founds, rfl, by simp, rfl⟩

theorem registers_amid {es : List HierarchyEntry} (known : es ⊆ m.hierarchyEntries) (founds : f.Of m) (n : Nat)
    (report : ApplyReport) : ∃ f' : Founding, f'.Of m ∧
      f'.hierarchy = (if Schema.registry ∈ f.tables then survivors mishap n es else []).foldl .insert f.hierarchy ∧
      (((es.map Statement.register).zipIdx n).foldl (Database.stepAmid vs enforce mishap)
        (report, f.database vs)).2 = f'.database vs := by
  induction es generalizing f n report with
  | nil => exact ⟨f, founds, by simp [survivors], rfl⟩
  | cons e rest ih =>
    obtain ⟨f', founds', tables, entered, first⟩ :=
      register_amid compiles ideal enforce mishap founds (known List.mem_cons_self) n report
    obtain ⟨f'', founds'', all, last⟩ := ih (fun d hd => known (List.mem_cons_of_mem _ hd)) founds' (n + 1)
      (Database.stepAmid vs enforce mishap (report, f.database vs) (.register e, n)).1
    refine ⟨f'', founds'', ?_, ?_⟩
    · rw [all, tables, entered, survivors_cons]
      by_cases there : Schema.registry ∈ f.tables
      · cases mishap n <;> simp [there]
      · simp [there]
    · rw [← last, ← first]
      rfl

/-- The hierarchy's table is the first to be created. -/
theorem registry_amid (report : ApplyReport) : ∃ f : Founding, f.Of m ∧ f.hierarchy = .empty ∧
    (mishap 0 = none → Schema.registry ∈ f.tables) ∧
    (Database.stepAmid vs enforce mishap (report, {}) (.create Schema.registry, 0)).2 = f.database vs := by
  have nothing : ({} : Founding).database vs = ({} : Database V) := rfl
  have mem := Model.Compiles.registry_mem m
  cases met : mishap 0 with
  | none =>
    have created := create_ends compiles (nothing_of m) ideal m.tables_eq (List.nil_subset _)
    refine ⟨_, (nothing_of m).create mem, by simp, fun _ => mem_create.2 (.inr rfl), ?_⟩
    rw [Database.stepAmid, Store.applyStatement_create, met]
    exact congrArg Prod.snd created
  | some x =>
    obtain ⟨f, founds, same, _, leads⟩ := create_amid compiles ideal enforce mishap (nothing_of m) mem 0 report
    exact ⟨f, founds, same, (nomatch ·), leads⟩

/-- Applying a schema amid mishaps leads to some of its tables and some of its hierarchy. If nothing but the last
statements meets with mishaps, the first entries are there. -/
theorem apply_amid : ∃ f : Founding, f.Of m ∧
    (Database.applyAmid vs enforce mishap m.schema.statements {}).2 = f.database vs ∧
    ((∃ k, ∀ n, mishap n = none ↔ n < k) → ∃ j, f.hierarchy = .ofEntries (m.hierarchyEntries.take j)) := by
  obtain ⟨f, founds, empty, there, first⟩ := registry_amid compiles ideal enforce mishap (m := m) {}
  have known : m.dataTables ⊆ m.tables := fun _ => List.mem_cons_of_mem _
  obtain ⟨f', founds', same, grown, tables⟩ := creates_amid compiles ideal enforce mishap known founds 1
    (Database.stepAmid vs enforce mishap ({}, {}) (.create Schema.registry, 0)).1
  obtain ⟨f'', founds'', entered, all⟩ := registers_amid compiles ideal enforce mishap (List.Subset.refl _) founds'
    m.tables.length (((m.dataTables.map Statement.create).zipIdx 1).foldl (Database.stepAmid vs enforce mishap)
      (Database.stepAmid vs enforce mishap ({}, {}) (.create Schema.registry, 0))).1
  refine ⟨f'', founds'', ?_, ?_⟩
  · rw [← all, ← tables, ← first]
    simp [Database.applyAmid, Model.schema, m.tables_eq, List.zipIdx_append, Nat.add_comm 1]
  · rintro ⟨k, cut⟩
    rw [entered, same, empty]
    -- Unless the first statement fails too, registrations that meet with no mishap find the hierarchy's table.
    by_cases start : 0 < k
    · refine ⟨k - m.tables.length, ?_⟩
      rw [if_pos (grown (there ((cut 0).2 start))), survivors_take cut]
      rfl
    · refine ⟨0, ?_⟩
      have past : k - m.tables.length = 0 := by omega
      rw [survivors_take cut, past]
      simp [Hierarchy.ofEntries]

end Amid

/-- A full founding has just what the schema asks for. -/
theorem Full.holds (full : f.Full m) (founds : f.Of m) (compiles : m.Compiles) :
    Database.Holds vs m.schema f.hierarchy (f.database vs) := by
  have tables : f.tables.Perm m.tables :=
    (List.perm_ext_iff_of_nodup founds.tablesOnce compiles.table_keys.of_map).2 fun t =>
      ⟨fun mem => founds.tables mem, fun mem => full.tables mem⟩
  have sequences : f.sequences.Perm (m.tables.filterMap (·.sequence?)) :=
    (List.perm_ext_iff_of_nodup founds.sequencesOnce compiles.sequences_distinct.of_map).2 fun q =>
      ⟨fun mem => founds.sequences mem, fun mem => full.sequences mem⟩
  constructor
  · rw [m.schema_tables]
    exact tables.map (f.table vs)
  · rw [m.schema_tables]
    exact sequences.map (·, 1)

end Founding

/-! ### Recovery -/

namespace Database

variable {V : Type} {vs : ValueSystem V}

/-- Applied to an empty database, a schema lays down all its tables and registers each pair once. Applied again after a
time when any statements have met with mishaps, it leaves the same but for the relations of pairs that have several, and
no other if nothing but the last statements has. Applied once more, it passes over everything. -/
theorem apply_recovers (ideal : vs.Ideal) (enforce : Bool) {m : Model} {s : Schema}
    (compiled : Schema.ofModel m = .ok s) :
    let apply := (store vs enforce).apply s.statements
    ((apply {}).1.isClean = true ∧
      (apply {}).1.executed = s.tables.map (fun t => (Statement.create t).label) ∧
      (apply {}).1.registered = (s.entries.map HierarchyEntry.pair).dedup.length ∧
      Holds vs s s.hierarchy (apply {}).2) ∧
    (∀ mishap : Nat → Option Mishap,
      let again := apply (applyAmid vs enforce mishap s.statements {}).2
      again.1.isClean = true ∧
      ∃ h, Holds vs s h again.2 ∧ (∀ parent child, h.has parent child = s.hierarchy.has parent child) ∧
        ((∃ k, ∀ n, mishap n = none ↔ n < k) → h = s.hierarchy)) ∧
    ∀ db, (db = (apply {}).2 ∨
        ∃ mishap : Nat → Option Mishap, db = (apply (applyAmid vs enforce mishap s.statements {}).2).2) →
      apply db = ({
        alreadyExisted := s.tables.map fun t => ((Statement.create t).label, .failed .alreadyExists none)
        registrySkipped := s.entries.length }, db) := by
  obtain ⟨rfl, compiles⟩ := ofModel_ok.1 compiled
  have nothing := Founding.nothing_of m
  have empty : ({} : Founding).database vs = ({} : Database V) := rfl
  have first := Founding.apply_eq compiles ideal enforce nothing
  rw [empty] at first
  have holds {f : Founding} (founds : f.Of m) :
      Holds vs m.schema (f.complete m).hierarchy ((f.complete m).database vs) :=
    (Founding.complete_full m f).holds founds.complete compiles
  simp only [m.schema_hierarchy, m.schema_tables, m.schema_entries]
  refine ⟨?_, fun mishap => ?_, ?_⟩
  · rw [first]
    refine ⟨rfl, by simp, ?_, holds nothing⟩
    have counted := Hierarchy.count_steps_enter m.hierarchyEntries .empty
    simpa [Hierarchy.empty, ← Hierarchy.length_ofEntries, Hierarchy.ofEntries] using counted
  · obtain ⟨f, founds, state, cut⟩ := Founding.apply_amid compiles ideal enforce mishap
    rw [state, Founding.apply_eq compiles ideal enforce founds]
    refine ⟨rfl, _, holds founds, fun parent child => ?_, fun last => ?_⟩
    · rw [Bool.eq_iff_iff, Founding.complete, Hierarchy.has_foldl_insert, Model.hierarchy, Hierarchy.has_ofEntries]
      refine ⟨fun either => either.elim (fun old => ?_) id, .inr⟩
      obtain ⟨e, he, parent, child⟩ := Hierarchy.has_iff.1 old
      exact ⟨e, founds.entries he, Prod.ext parent child⟩
    · obtain ⟨j, started⟩ := cut last
      rw [Founding.complete, started]
      exact Hierarchy.foldl_insert_take m.hierarchyEntries j
  · intro db either
    -- Either way all of the model is there, so that nothing is added.
    have left : ∃ f : Founding, f.Of m ∧ db = (f.complete m).database vs := by
      rcases either with rfl | ⟨mishap, rfl⟩
      · exact ⟨{}, nothing, congrArg Prod.snd first⟩
      · obtain ⟨f, founds, state, _⟩ := Founding.apply_amid compiles ideal enforce mishap
        exact ⟨f, founds, by rw [state, Founding.apply_eq compiles ideal enforce founds]⟩
    obtain ⟨f, founds, rfl⟩ := left
    exact Founding.apply_full compiles ideal enforce founds.complete (Founding.complete_full m f)

/-- The table of boxes is not created the first time, though its sequence is, nor are the tables that refer to it. -/
theorem apply_recovers_boxes :
    let store := store ColumnValue.system true
    let mishap : Nat → Option Mishap := fun n => if n = 2 then some ⟨.failed .internal none, true⟩ else none
    Schema.ofModel Sample.boxes = .ok Sample.boxes.schema ∧
    (applyAmid ColumnValue.system true mishap Sample.boxes.schema.statements {}).1.failed.length = 3 ∧
    (store.apply Sample.boxes.schema.statements
      (applyAmid ColumnValue.system true mishap Sample.boxes.schema.statements {}).2).1.isClean = true := by
  refine ⟨Sample.boxes_compile, by decide +kernel, ?_⟩
  exact ((apply_recovers ColumnValue.system_ideal true Sample.boxes_compile).2.1 _).1

end Database

end TreeStore
