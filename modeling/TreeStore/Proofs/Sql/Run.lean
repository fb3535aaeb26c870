import TreeStore.Proofs.Sql.Printed
import TreeStore.Proofs.Store.Applied

/-! Running scripts on a database. The script of a model that compiles leaves the database that applying its
schema leaves; but an entry of the hierarchy whose pair is there is inserted all the same, which fails. -/

namespace TreeStore

namespace Sql

/-- The table that a definition describes. Its kind is not in the text, and a database does not ask for it. -/
def Definition.table (d : Definition) : Table where
  name := d.name
  kind := .entity
  columns := d.columns
  primaryKey := d.primaryKey

variable {V : Type} (vs : ValueSystem V) (enforce : Bool)

def Command.run : Command → Database V → Except StoreError Unit × Database V
  | .createSequence name, db => (.ok (), db.addSequence (some name))
  | .createTable d, db => db.create vs d.table
  | .insert i, db => db.insert vs enforce i

/-- Runs commands one after another, and gives those that have failed. -/
def run : List Command → Database V → List (Command × StoreError) × Database V
  | [], db => ([], db)
  | c :: rest, db => match c.run vs enforce db with
    | (.ok (), db) => run rest db
    | (.error error, db) => ((c, error) :: (run rest db).1, (run rest db).2)

variable {vs enforce}

theorem run_append (cs ds : List Command) (db : Database V) : run vs enforce (cs ++ ds) db =
    ((run vs enforce cs db).1 ++ (run vs enforce ds (run vs enforce cs db).2).1,
      (run vs enforce ds (run vs enforce cs db).2).2) := by
  induction cs generalizing db with
  | nil => rfl
  | cons c rest ih =>
    rw [List.cons_append, run, run]
    rcases c.run vs enforce db with ⟨_ | _, db'⟩
    · simp only [ih, List.cons_append]
    · exact ih db'

end Sql

open Sql

/-! ### Entries that come again -/

namespace HierarchyEntry

/-- The entries whose pair has been seen before, be it at an entry before them. -/
def repeated (seen : List (String × String)) : List HierarchyEntry → List HierarchyEntry
  | [] => []
  | e :: rest => if e.pair ∈ seen then e :: repeated seen rest else repeated (e.pair :: seen) rest

theorem repeated_eq_nil {seen : List (String × String)} {es : List HierarchyEntry} :
    repeated seen es = [] ↔ (∀ e ∈ es, e.pair ∉ seen) ∧ (es.map pair).Nodup := by
  induction es generalizing seen with
  | nil => simp [repeated]
  | cons e rest ih =>
    rw [repeated]
    split
    · next old => simp [old]
    · next new =>
      rw [ih, List.forall_mem_cons, List.map_cons, List.nodup_cons, List.mem_map]
      simp only [List.mem_cons, not_or, not_exists, not_and]
      constructor
      · exact fun ⟨fresh, distinct⟩ =>
          ⟨⟨new, fun f mem => (fresh f mem).2⟩, fun f mem => (fresh f mem).1, distinct⟩
      · exact fun ⟨⟨_, fresh⟩, apart, distinct⟩ =>
          ⟨fun f mem => ⟨apart f mem, fresh f mem⟩, distinct⟩

end HierarchyEntry

namespace Model.Compiles

variable {m : Model} (compiles : m.Compiles)
include compiles

/-- No pair comes again iff no entity has two relations to one target. -/
theorem pairs_nodup : (m.hierarchyEntries.map HierarchyEntry.pair).Nodup ↔
    ∀ e ∈ m.entities, (e.relations.map (·.target)).Nodup := by
  have apart : m.entities.Pairwise (Function.onFun List.Disjoint fun e =>
      e.relations.map fun r => (e.name.text, r.target.text)) := by
    refine (List.pairwise_map.1 compiles.wellNamed.entity_names).imp_of_mem fun {e f} he hf other => ?_
    intro p first second
    obtain ⟨r, _, rfl⟩ := List.mem_map.1 first
    obtain ⟨r', _, same⟩ := List.mem_map.1 second
    exact other (Name.ext (Prod.mk.inj same).1.symm)
  have pairs : m.hierarchyEntries.map HierarchyEntry.pair =
      m.entities.flatMap fun e => e.relations.map fun r => (e.name.text, r.target.text) := by
    simp [hierarchyEntries, List.map_flatMap, HierarchyEntry.pair, Function.comp_def]
  rw [pairs, List.nodup_flatMap, and_iff_left apart]
  refine forall₂_congr fun e _ => ?_
  have targets : (e.relations.map fun r => (e.name.text, r.target.text)) =
      (e.relations.map (·.target)).map fun n => (e.name.text, n.text) := by
    simp
  rw [targets, List.nodup_map_iff fun n k same => Name.ext (Prod.mk.inj same).2]

theorem table_legible {t : Table} (mem : t ∈ m.tables) : t.Legible := by
  obtain ⟨_, creatable⟩ := Table.creatableAfter_mem compiles.tables_creatable mem
  refine ⟨creatable.columns, fun c hc => ⟨creatable.types c hc, fun d default => ?_⟩⟩
  obtain ⟨q, rfl, sequence⟩ := creatable.defaults c hc d default
  obtain rfl := compiles.sequence_name mem sequence
  refine ⟨_, rfl, fun mark => ?_⟩
  rw [Schema.sequenceOf, String.toList_append] at mark
  rcases List.mem_append.1 mark with fixed | name
  · exact absurd fixed (by decide)
  · exact absurd (Ident.isValid_part (compiles.table_checked mem).1 _ name) (by decide)

theorem legible : ∀ stmt ∈ m.schema.statements, stmt.Legible := by
  intro stmt mem
  rcases List.mem_append.1 mem with mem | mem
  · obtain ⟨t, ht, rfl⟩ := List.mem_map.1 mem
    exact compiles.table_legible ht
  · obtain ⟨e, _, rfl⟩ := List.mem_map.1 mem
    trivial

end Model.Compiles

/-! ### Statements -/

namespace Database

variable {V : Type} {vs : ValueSystem V} {enforce : Bool}

/-- Creating a table is creating its sequence and then the table. -/
theorem run_create {db db' : Database V} {t : Table} (created : db.create vs t = (.ok (), db')) :
    run vs enforce (Statement.create t).commands db = ([], db') := by
  have after : (db.addSequence t.sequence?).create vs t.definition.table = (.ok (), db') := created
  cases sequence : t.sequence? with
  | none =>
    rw [sequence] at after
    have alone : db.create vs t.definition.table = (.ok (), db') := after
    simp [Statement.commands, sequence, run, Command.run, alone]
  | some q =>
    rw [sequence] at after
    simp [Statement.commands, sequence, run, Command.run, after]

/-- Tables are created one after another if each of them can be created after those before it. -/
theorem run_creates {done ts : List Table} (created : ∀ before t after, ts = before ++ t :: after →
    (laidOut vs (done ++ before)).create vs t = (.ok (), laidOut vs (done ++ before ++ [t]))) :
    run vs enforce ((ts.map Statement.create).flatMap (·.commands)) (laidOut vs done) =
      ([], laidOut vs (done ++ ts)) := by
  induction ts generalizing done with
  | nil => simp [run]
  | cons t rest ih =>
    have first := created [] t rest rfl
    rw [List.append_nil] at first
    have others : run vs enforce ((rest.map Statement.create).flatMap (·.commands)) (laidOut vs (done ++ [t])) =
        ([], laidOut vs (done ++ t :: rest)) := by
      rw [ih fun before u after split => ?_, List.append_assoc]
      · rfl
      · have later := created (t :: before) u after (by rw [split]; rfl)
        simpa using later
    rw [List.map_cons, List.flatMap_cons, run_append, run_create first, others]
    rfl

section Insertions

variable (ideal : vs.Ideal) (others : List (StoredTable V)) (sequences : List (String × Int)) (h : Hierarchy)
include ideal

/-- Entries are inserted, except those whose pair has come before: these fail, and nothing is changed by them. -/
theorem run_entries (enforce : Bool) (apart : ∀ t ∈ others, sameName t.name Schema.registryTable = false)
    (es : List HierarchyEntry) {seen : List (String × String)} (same : ∀ p, h.has p.1 p.2 = true ↔ p ∈ seen) :
    run vs enforce ((es.map Statement.register).flatMap (·.commands)) (withHierarchy vs others sequences h) =
      ((HierarchyEntry.repeated seen es).map fun e =>
          (.insert (Registry.insertEntry e), .failed .constraint none),
        withHierarchy vs others sequences (es.foldl Hierarchy.insert h)) := by
  -- What has been seen are the pairs of the hierarchy, which is so again after each entry.
  induction es generalizing h seen with
  | nil => rfl
  | cons e rest ih =>
    rw [List.map_cons, List.flatMap_cons, List.foldl_cons, HierarchyEntry.repeated]
    have first : (Statement.register e).commands ++ (rest.map Statement.register).flatMap (·.commands) =
        .insert (Registry.insertEntry e) :: (rest.map Statement.register).flatMap (·.commands) := rfl
    rw [first, run, Command.run]
    have inserted := insertEntry_eq ideal (withHierarchy_table? vs others sequences h) enforce e
    by_cases old : e.pair ∈ seen
    · have known : h.has e.parent e.child = true := (same e.pair).2 old
      rw [enter, known] at inserted
      rw [if_pos old, inserted, Hierarchy.insert_entries_of_has known]
      simp only [if_true, ih h same, List.map_cons]
    · have unknown : h.has e.parent e.child = false := Bool.eq_false_iff.2 fun known => old ((same e.pair).1 known)
      rw [enter, unknown] at inserted
      rw [if_neg old, inserted]
      simp only [Bool.false_eq_true, if_false, withHierarchy_addRow sequences apart unknown]
      refine ih (h.insert e) fun p => ?_
      rw [Hierarchy.has_insert, same p, List.mem_cons]
      exact or_comm.trans (or_congr_left eq_comm)

end Insertions

/-- The commands of a model's schema, one after another, found the database in which the schema has been applied. -/
theorem run_schema (ideal : vs.Ideal) {m : Model} (compiles : m.Compiles) :
    run vs enforce (m.schema.statements.flatMap (·.commands)) {} =
      ((HierarchyEntry.repeated [] m.hierarchyEntries).map fun e =>
          (.insert (Registry.insertEntry e), .failed .constraint none),
        founded vs m) := by
  have each : ∀ before t after, m.tables = before ++ t :: after →
      (laidOut vs ([] ++ before)).create vs t = (.ok (), laidOut vs ([] ++ before ++ [t])) :=
    fun _ _ _ split => table_created vs compiles ideal split
  have created : run vs enforce ((m.tables.map Statement.create).flatMap (·.commands)) {} =
      ([], laidOut vs m.tables) := run_creates each
  have nothing : ∀ p : String × String, Hierarchy.empty.has p.1 p.2 = true ↔ p ∈ [] := fun p => by
    simp [Hierarchy.has, Hierarchy.empty]
  have registered := run_entries ideal (m.dataTables.map (stored vs)) (sequencesOf m.tables) .empty enforce
    (dataTables_apart vs compiles) m.hierarchyEntries nothing
  rw [Model.schema, List.flatMap_append, run_append, created]
  dsimp only
  rw [laidOut_tables, registered]
  rfl

end Database

/-- The script of a model that compiles, run on an empty database, founds the same database as applying its schema.
Nothing in it fails but the entries of the hierarchy whose pair comes for another time; there are none just if no
entity has two relations to one target. -/
theorem script_runs {V : Type} {vs : ValueSystem V} (ideal : vs.Ideal) (enforce : Bool) {m : Model} {s : Schema}
    (compiled : Schema.ofModel m = .ok s) : ∃ commands, Sql.commands? s.script = some commands ∧
      Sql.run vs enforce commands {} =
        ((HierarchyEntry.repeated [] s.entries).map fun e =>
            (.insert (Registry.insertEntry e), .failed .constraint none),
          ((Database.store vs enforce).apply s.statements {}).2) ∧
      (HierarchyEntry.repeated [] s.entries = [] ↔ ∀ e ∈ m.entities, (e.relations.map (·.target)).Nodup) := by
  obtain ⟨rfl, compiles⟩ := ofModel_ok.1 compiled
  have applied := Database.applied_schema vs compiles ideal enforce
  refine ⟨_, Schema.script_commands compiles.legible, ?_, ?_⟩
  · rw [Database.run_schema ideal compiles, m.schema_entries, applied]
  · rw [m.schema_entries, HierarchyEntry.repeated_eq_nil, compiles.pairs_nodup]
    simp

/-- The script of boxes and items runs through. -/
theorem script_runs_boxes : ∃ commands, Sql.commands? Sample.boxes.schema.script = some commands ∧
    Sql.run ColumnValue.system true commands {} =
      ([], ((Database.store ColumnValue.system true).apply Sample.boxes.schema.statements {}).2) := by
  obtain ⟨commands, read, ran, none⟩ := script_runs ColumnValue.system_ideal true Sample.boxes_compile
  refine ⟨commands, read, ?_⟩
  rw [ran, none.2 (by decide)]
  rfl

/-- The script of steps that lead on and back enters the pair of steps twice, which the key of the table forbids. -/
theorem further_relation_inserted : ∃ schema commands, Schema.ofModel Sample.walks = .ok schema ∧
    Sql.commands? schema.script = some commands ∧
    (Sql.run ColumnValue.system true commands {}).1 =
      [(.insert (Registry.insertEntry ⟨"Step", "Step", "back"⟩), .failed .constraint none)] := by
  have compiles := (ofModel_ok.1 Sample.walks_compile).2
  refine ⟨_, _, Sample.walks_compile, Schema.script_commands compiles.legible, ?_⟩
  rw [Database.run_schema ColumnValue.system_ideal compiles]
  decide

end TreeStore
