import TreeStore.Proofs.Load.Consistent

/-! Running parts of a load: the outcome of each basic step, and what asking for columns comes to when what
is remembered of them is right. -/

namespace TreeStore.Loader

section Basic

variable {σ α β : Type}

def outcome (x : LoadM σ α) (p : Progress σ) : Except LoadError α × Progress σ := StateT.run (ExceptT.run x) p

theorem outcome_bind (x : LoadM σ α) (f : α → LoadM σ β) (p : Progress σ) : outcome (x >>= f) p =
    match outcome x p with
    | (.ok a, q) => outcome (f a) q
    | (.error e, q) => (.error e, q) := by
  unfold outcome
  rw [ExceptT.run_bind, StateT.run_bind]
  rcases StateT.run (ExceptT.run x) p with ⟨_ | _, _⟩ <;> rfl

theorem outcome_bind_ok {x : LoadM σ α} {f : α → LoadM σ β} {p q : Progress σ} {a : α}
    (first : outcome x p = (.ok a, q)) : outcome (x >>= f) p = outcome (f a) q := by
  rw [outcome_bind, first]

theorem outcome_bind_error {x : LoadM σ α} {f : α → LoadM σ β} {p q : Progress σ} {e : LoadError}
    (first : outcome x p = (.error e, q)) : outcome (x >>= f) p = (.error e, q) := by
  rw [outcome_bind, first]

theorem outcome_get (p : Progress σ) : outcome (get : LoadM σ (Progress σ)) p = (.ok p, p) := rfl

theorem outcome_modify (f : Progress σ → Progress σ) (p : Progress σ) :
    outcome (modify f : LoadM σ PUnit) p = (.ok ⟨⟩, f p) := rfl

theorem outcome_ask_ok {store : Store σ} {path : NodePath} {r : Request} {p : Progress σ} {a : r.Answer} {s : σ}
    (answered : store.answer r p.store = (.ok a, s)) :
    outcome (ask store path r) p = (.ok a, { p with store := s }) := by
  unfold ask
  rw [outcome_bind_ok (outcome_get p), answered]
  rfl

theorem outcome_ask_error {store : Store σ} {path : NodePath} {r : Request} {p : Progress σ} {e : StoreError} {s : σ}
    (answered : store.answer r p.store = (.error e, s)) :
    outcome (ask store path r) p = (.error (.store path e), { p with store := s }) := by
  unfold ask
  rw [outcome_bind_ok (outcome_get p), answered]
  rfl

/-- Once the hierarchy has been read, a load goes on with it. -/
theorem outcome_load {store : Store σ} {p : Progress σ} {h : Hierarchy} {s : σ}
    (read : Registry.load store p.store = (.ok h, s)) (settings : LoadSettings) (t : Tree) :
    outcome (load store settings t) p = outcome (loadWith store h settings t) { p with store := s } := by
  unfold load
  rw [outcome_bind_ok (outcome_get p), read]
  rfl

theorem outcome_load_error {store : Store σ} {p : Progress σ} {e : RegistryError} {s : σ}
    (read : Registry.load store p.store = (.error e, s)) (settings : LoadSettings) (t : Tree) :
    outcome (load store settings t) p = (.error (.registry e), { p with store := s }) := by
  unfold load
  rw [outcome_bind_ok (outcome_get p), read]
  rfl

end Basic

section Columns

variable {σ : Type} (store : Store σ) (path : NodePath) {p : Progress σ}

/-- Keeps in mind the columns of a table, of which there has to be one. -/
def remember (table : String) (columns : List CatalogColumn) : LoadM σ (List CatalogColumn) :=
  if columns.isEmpty then throw (.misfit path (.noTable table))
  else do
    modify fun p => { p with columns := p.columns.insert (Text.lower table) columns }
    return columns

theorem columnsOf_known {table : String} {columns : List CatalogColumn}
    (known : p.columns.get? (Text.lower table) = some columns) :
    outcome (columnsOf store path table) p = (.ok columns, p) := by
  unfold columnsOf
  rw [outcome_bind_ok (outcome_get p), known]
  rfl

theorem columnsOf_unknown {table : String} (unknown : p.columns.get? (Text.lower table) = none) :
    outcome (columnsOf store path table) p = outcome (do
      let columns ← ask store path (.columnsOf table)
      remember path table columns) p := by
  unfold columnsOf remember
  rw [outcome_bind_ok (outcome_get p), unknown]
  dsimp only
  congr 2

end Columns

open Database

variable {V : Type} {vs : ValueSystem V} {m : Model} (enforce : Bool)

def catalog (vs : ValueSystem V) (t : Table) : List CatalogColumn := (stored vs t).columns.map Column.inCatalog

def Remembers (vs : ValueSystem V) (m : Model) (columns : ColumnCache) : Prop :=
  ∀ t ∈ m.tables, ∀ found, columns.get? (Text.lower t.name) = some found → found = catalog vs t

theorem remembers_empty : Remembers vs m .empty := fun _ _ _ found => nomatch found

structure Ready (vs : ValueSystem V) (m : Model) (p : Progress (Database V)) : Prop where
  consistent : Consistent vs m p.store
  columns : Remembers vs m p.columns

variable (compiles : m.Compiles)
include compiles

theorem Remembers.insert {columns : ColumnCache} (right : Remembers vs m columns) {t : Table} (mem : t ∈ m.tables) :
    Remembers vs m (columns.insert (Text.lower t.name) (catalog vs t)) := by
  intro u hu found eq
  rw [TextMap.get?_insert] at eq
  split at eq
  · next same =>
    obtain rfl := compiles.table_unique hu mem (sameName_iff.2 same)
    exact (Option.some.inj eq).symm
  · exact right u hu found eq

/-- Asking for the columns of a table of the model gives them and changes nothing but what is remembered. -/
theorem columnsOf_outcome {p : Progress (Database V)} (ready : Ready vs m p) {t : Table} (mem : t ∈ m.tables)
    (path : NodePath) : ∃ columns, Remembers vs m columns ∧
      outcome (columnsOf (store vs enforce) path t.name) p = (.ok (catalog vs t), { p with columns }) := by
  cases known : p.columns.get? (Text.lower t.name) with
  | some found =>
    obtain rfl := ready.columns t mem found known
    exact ⟨p.columns, ready.columns, columnsOf_known _ path known⟩
  | none =>
    have answered : (store vs enforce).answer (.columnsOf t.name) p.store = (.ok (catalog vs t), p.store) := by
      simp only [store, answer, Database.columnsOf, ready.consistent.table? compiles mem]
      rfl
    have some : (catalog vs t).isEmpty = false := by
      rw [catalog, List.isEmpty_map, stored, List.isEmpty_map]
      have columns := (compiles.table_columns mem)
      cases eq : t.columns with
      | nil => exact absurd eq columns
      | cons c rest => rfl
    refine ⟨_, ready.columns.insert compiles mem, ?_⟩
    rw [columnsOf_unknown _ path known, outcome_bind_ok (outcome_ask_ok answered), remember, some]
    rfl

end TreeStore.Loader
