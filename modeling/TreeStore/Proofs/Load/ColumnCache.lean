import TreeStore.Proofs.Load.Coupling
import TreeStore.Store.Apply

/-! What a loader remembers of columns makes no difference. Two loads of the same tree, with the same store, go on
alike whatever each remembers, as long as that is right, and they leave it right. -/

namespace TreeStore

open Loader

variable {σ α β : Type}

/-! ### Stores with a stable catalog -/

/-- Looking up the columns of a table changes nothing and does not mind the case of the table's name, and columns that
have once been found are found after any request. -/
structure Store.StableCatalog (store : Store σ) : Prop where
  reads : ∀ table s, (store.answer (.columnsOf table) s).2 = s
  anyCase : ∀ table other s, Text.lower table = Text.lower other →
    (store.answer (.columnsOf table) s).1 = (store.answer (.columnsOf other) s).1
  stays : ∀ table columns s, (store.answer (.columnsOf table) s).1 = .ok columns → columns.isEmpty = false →
    ∀ r, (store.answer (.columnsOf table) (store.answer r s).2).1 = .ok columns

/-! ### What requests keep -/

/-- What may be asked to apply a statement. -/
def Statement.requests : Statement → List Request
  | .create t => [.create t]
  | .register e => [.select (Registry.selectRelation e.parent e.child), .insert (Registry.insertEntry e)]

section Requests

variable {store : Store σ} {I : σ → Prop}

theorem Registry.load_keeps (each : ∀ s, I s → I (store.answer (.select selectAll) s).2) {s : σ} (holds : I s) :
    I (Registry.load store s).2 := by
  have read := each s holds
  unfold Registry.load
  rcases answered : store.answer (.select selectAll) s with ⟨_ | _, s'⟩ <;> simpa [answered] using read

theorem Registry.register_keeps (e : HierarchyEntry)
    (each : ∀ r ∈ (Statement.register e).requests, ∀ s, I s → I (store.answer r s).2) {s : σ} (holds : I s) :
    I (Registry.register store e s).2 := by
  have read := each _ List.mem_cons_self s holds
  unfold Registry.register
  rcases answered : store.answer (.select (selectRelation e.parent e.child)) s with ⟨_ | _ | _, s'⟩
  · simpa [answered] using read
  · rw [answered] at read
    have written := each _ (List.mem_cons_of_mem _ List.mem_cons_self) s' read
    dsimp only
    rcases inserted : store.answer (.insert (insertEntry e)) s' with ⟨_ | _, s''⟩ <;> simpa [inserted] using written
  · simpa [answered] using read

theorem Store.applyStatement_keeps (report : ApplyReport) (stmt : Statement)
    (each : ∀ r ∈ stmt.requests, ∀ s, I s → I (store.answer r s).2) {s : σ} (holds : I s) :
    I (store.applyStatement report s stmt).2 := by
  cases stmt with
  | register e =>
    rw [Store.applyStatement_register]
    exact Registry.register_keeps e each holds
  | create t =>
    rw [Store.applyStatement_create]
    exact each _ List.mem_cons_self s holds

/-- What every request of some statements keeps is kept by applying them. -/
theorem Store.apply_keeps (stmts : List Statement)
    (each : ∀ stmt ∈ stmts, ∀ r ∈ stmt.requests, ∀ s, I s → I (store.answer r s).2) {s : σ} (holds : I s) :
    I (store.apply stmts s).2 := by
  unfold Store.apply
  generalize ({} : ApplyReport) = report
  induction stmts generalizing report s with
  | nil => exact holds
  | cons stmt rest ih =>
    rw [List.foldl_cons]
    exact ih (fun stmt mem => each stmt (List.mem_cons_of_mem _ mem))
      (Store.applyStatement_keeps report stmt (each stmt List.mem_cons_self) holds) _

end Requests

/-! ### Databases -/

namespace Database

variable {V : Type} {vs : ValueSystem V}

theorem Grows.columnsOf {db db' : Database V} (grows : db.Grows db') (table : String) :
    db'.columnsOf table = db.columnsOf table := by
  obtain ⟨more, eq⟩ := grows table
  rw [Database.columnsOf, eq]
  cases found : db.table? table <;> simp [Database.columnsOf, found, StoredTable.withRows]

theorem insertInto_grows (vs : ValueSystem V) (enforce : Bool) (i : Insert) (t : StoredTable V) (db : Database V) :
    db.Grows (db.insertInto vs enforce i t).2 := by
  unfold insertInto
  cases db.rowOf vs i t with
  | error error => exact .refl db
  | ok made =>
    dsimp only
    split
    · exact .addRow { db with sequences := made.2 } t.name made.1
    · exact .refl db

theorem create_columnsOf (t : Table) {db : Database V} {table : String} (there : (db.columnsOf table).isEmpty = false) :
    (db.create vs t).2.columnsOf table = db.columnsOf table := by
  cases found : db.table? table with
  | none => simp [Database.columnsOf, found] at there
  | some u => rw [Database.columnsOf, Database.columnsOf, create_table? vs found t, found]

theorem store_stable (vs : ValueSystem V) (enforce : Bool) : (store vs enforce).StableCatalog where
  reads := fun _ _ => rfl
  anyCase := fun table other db same => by
    have found := db.table?_congr same
    simp [store, answer, Database.columnsOf, found]
  stays := fun table columns db found there r => by
    obtain rfl : db.columnsOf table = columns := Except.ok.inj found
    refine congrArg Except.ok ?_
    cases r with
    | create t => exact create_columnsOf t there
    | select q => rfl
    | columnsOf other => rfl
    | insert i =>
      simp only [store, answer, insert]
      cases db.table? i.table with
      | none => rfl
      | some t =>
        have same := (insertInto_grows vs enforce i t db).columnsOf table
        dsimp only
        rcases inserted : db.insertInto vs enforce i t with ⟨_ | _, db'⟩ <;> simpa [inserted] using same
    | insertReturning i =>
      simp only [store, answer, insertReturning]
      cases db.table? i.table with
      | none => rfl
      | some t =>
        have same := (insertInto_grows vs enforce i t db).columnsOf table
        dsimp only
        split
        · rfl
        · rcases inserted : db.insertInto vs enforce i t with ⟨_ | _, db'⟩
          · simpa [inserted] using same
          · rw [inserted] at same
            dsimp only
            split <;> exact same

end Database

/-! ### What is remembered -/

namespace Loader

variable (store : Store σ)

def Coherent (columns : ColumnCache) (s : σ) : Prop :=
  ∀ table found, columns.get? (Text.lower table) = some found →
    (store.answer (.columnsOf table) s).1 = .ok found ∧ found.isEmpty = false

structure Alike (p q : Progress σ) : Prop where
  stores : p.store = q.store
  reports : p.report = q.report
  first : Coherent store p.columns p.store
  second : Coherent store q.columns q.store

/-- A part of a load comes out the same, whatever is remembered, as long as it is right. -/
def Blind (x : LoadM σ α) : Prop := ∀ p q, Alike store p q →
  (outcome x p).1 = (outcome x q).1 ∧ Alike store (outcome x p).2 (outcome x q).2

variable {store}

theorem coherent_empty (s : σ) : Coherent store .empty s := fun _ _ found => nomatch found

section Stable

variable (stable : store.StableCatalog)
include stable

theorem Coherent.answer {columns : ColumnCache} (r : Request) (s : σ) (coherent : Coherent store columns s) :
    Coherent store columns (store.answer r s).2 := by
  intro table found known
  obtain ⟨there, some⟩ := coherent table found known
  exact ⟨stable.stays table found s there some r, some⟩

theorem Coherent.insert {columns : ColumnCache} {s : σ} (coherent : Coherent store columns s) {table : String}
    {found : List CatalogColumn} (there : (store.answer (.columnsOf table) s).1 = .ok found)
    (some : found.isEmpty = false) : Coherent store (columns.insert (Text.lower table) found) s := by
  intro other found' known
  rw [TextMap.get?_insert] at known
  split at known
  · next same =>
    cases known
    exact ⟨(stable.anyCase other table s same).trans there, some⟩
  · exact coherent other found' known

end Stable

/-! ### Basic steps -/

section Stable

variable (stable : store.StableCatalog) (path : NodePath)
include stable

theorem ask_blind (r : Request) : Blind store (ask store path r) := by
  rintro ⟨s, columns, report⟩ ⟨_, columns', _⟩ ⟨rfl, rfl, first, second⟩
  have first := first.answer stable r s
  have second := second.answer stable r s
  rcases answered : store.answer r s with ⟨error | a, s'⟩
  · rw [answered] at first second
    rw [outcome_ask_error answered, outcome_ask_error answered]
    exact ⟨rfl, rfl, rfl, first, second⟩
  · rw [answered] at first second
    rw [outcome_ask_ok answered, outcome_ask_ok answered]
    exact ⟨rfl, rfl, rfl, first, second⟩

def columnsFound (path : NodePath) (table : String) : Except StoreError (List CatalogColumn) →
    Except LoadError (List CatalogColumn)
  | .error error => .error (.store path error)
  | .ok columns => if columns.isEmpty then .error (.misfit path (.noTable table)) else .ok columns

theorem columnsOf_found {p : Progress σ} (coherent : Coherent store p.columns p.store) (table : String) :
    ∃ columns, Coherent store columns p.store ∧ outcome (columnsOf store path table) p =
      (columnsFound path table (store.answer (.columnsOf table) p.store).1, { p with columns }) := by
  cases known : p.columns.get? (Text.lower table) with
  | some found =>
    obtain ⟨there, some⟩ := coherent table found known
    refine ⟨p.columns, coherent, ?_⟩
    rw [columnsOf_known store path known, there, columnsFound, some]
    rfl
  | none =>
    rw [columnsOf_unknown store path known]
    have unchanged := stable.reads table p.store
    rcases answered : store.answer (.columnsOf table) p.store with ⟨error | found, s⟩
    · obtain rfl : s = p.store := by rw [← unchanged, answered]
      exact ⟨p.columns, coherent, outcome_bind_error (outcome_ask_error answered)⟩
    · obtain rfl : s = p.store := by rw [← unchanged, answered]
      rw [outcome_bind_ok (outcome_ask_ok answered), remember, columnsFound]
      split
      · exact ⟨p.columns, coherent, rfl⟩
      · next some =>
        have there : (store.answer (.columnsOf table) p.store).1 = .ok found := by rw [answered]
        exact ⟨_, coherent.insert stable there (Bool.eq_false_iff.2 some), rfl⟩

theorem columnsOf_blind (table : String) : Blind store (columnsOf store path table) := by
  intro p q alike
  obtain ⟨columns, right, eq⟩ := columnsOf_found stable path alike.first table
  obtain ⟨columns', right', eq'⟩ := columnsOf_found stable path alike.second table
  rw [eq, eq', alike.stores]
  exact ⟨rfl, rfl, alike.reports, alike.stores ▸ right, right'⟩

omit path in
theorem coupling_blind : Coupling store store (Alike store) where
  ask := ask_blind stable
  columnsOf := columnsOf_blind stable
  count := fun f _ _ alike => ⟨rfl, alike.stores, congrArg f alike.reports, alike.first, alike.second⟩
  report := fun _ _ alike => alike.reports

end Stable

/-! ### Loading a tree -/

section Tree

variable (h : Hierarchy) (settings : LoadSettings) (stable : store.StableCatalog)
include stable

theorem loadWith_blind (t : Tree) : Blind store (loadWith store h settings t) :=
  (coupling_blind stable).loadWith h settings t

omit h in
theorem load_blind (t : Tree) : Blind store (load store settings t) := by
  refine (coupling_blind stable).load settings (fun p q alike => ?_) t
  obtain ⟨s, columns, report⟩ := p
  obtain ⟨_, columns', _⟩ := q
  obtain ⟨rfl, rfl, first, second⟩ := alike
  exact ⟨rfl, rfl, rfl, Registry.load_keeps (fun _ => Coherent.answer stable _ _) first,
    Registry.load_keeps (fun _ => Coherent.answer stable _ _) second⟩

end Tree

end Loader

end TreeStore
