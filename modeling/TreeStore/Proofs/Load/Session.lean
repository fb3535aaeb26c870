import TreeStore.Proofs.Load.Run

/-! Loads one after another, by several loaders, in a database in which the schema of a model has been applied.
Each load finds the database consistent and leaves it so, however it ends. -/

namespace TreeStore

open Database Loader

def Tree.RootedIn (m : Model) (t : Tree) : Prop := ∃ e ∈ m.entities, e.name.text = t.type

/-! ### One load -/

section Load

variable {V : Type} (vs : ValueSystem V) (m : Model)

/-- How a load of a tree ends, and the database it leaves. -/
inductive LoadEnds (enforce : Bool) (settings : LoadSettings) (t : Tree) (db : Database V) :
    Except LoadError LoadReport → Database V → Prop
  | violation {path : NodePath} {v : Violation} (bad : t.check m.hierarchy settings.maxDepth = .error (path, v)) :
      LoadEnds enforce settings t db (.error (.violation path v)) db
  | done {report : LoadReport} {db' : Database V} (checked : t.check m.hierarchy settings.maxDepth = .ok ())
      (loaded : Loaded vs m settings t.trails db {} db' report) : LoadEnds enforce settings t db (.ok report) db'
  | failed {error : LoadError} {db' : Database V} (checked : t.check m.hierarchy settings.maxDepth = .ok ())
      (stopped : Stopped vs m enforce settings t.trails db {} error db') :
      LoadEnds enforce settings t db (.error error) db'

variable {vs m} {enforce : Bool} {settings : LoadSettings} {t : Tree} {db db' : Database V}
  {result : Except LoadError LoadReport}

theorem LoadEnds.grows (ends : LoadEnds vs m enforce settings t db result db') : db.Grows db' := by
  cases ends with
  | violation bad => exact .refl db
  | done checked loaded => exact loaded.grows
  | failed checked stopped => exact stopped.grows

variable (compiles : m.Compiles) (ideal : vs.Ideal)
include compiles ideal

theorem Loader.loadWith_ends (enforce : Bool) (settings : LoadSettings) {p : Progress (Database V)}
    (ready : Ready vs m p) (root : t.RootedIn m) :
    Ready vs m (outcome (loadWith (store vs enforce) m.hierarchy settings t) p).2 ∧
      LoadEnds vs m enforce settings t p.store (outcome (loadWith (store vs enforce) m.hierarchy settings t) p).1
        (outcome (loadWith (store vs enforce) m.hierarchy settings t) p).2.store := by
  unfold loadWith
  cases checked : t.check m.hierarchy settings.maxDepth with
  | error found => exact ⟨ready, .violation checked⟩
  | ok =>
    have lawful := Tree.trails_lawful compiles root checked
    have known : p.store.Knows vs [] := fun _ mem => nomatch mem
    have ends : Ends vs m enforce settings t.trails { p with report := {} } _ :=
      visit_ends compiles ideal ⟨t.type, []⟩ [] t lawful { p with report := {} } ⟨ready.consistent, ready.columns⟩ known
    dsimp only
    rw [outcome_bind_ok (outcome_modify _ p), outcome_bind]
    rcases ended : outcome (visit (store vs enforce) m.hierarchy settings ⟨t.type, []⟩ none .empty t)
      { p with report := {} } with ⟨error | done, q⟩
    · rw [show p.store.parentOf vs [] = none from rfl, show p.store.contextOf vs [] = .empty from rfl, ended] at ends
      exact ⟨ends.1, .failed checked ends.2⟩
    · rw [show p.store.parentOf vs [] = none from rfl, show p.store.contextOf vs [] = .empty from rfl, ended] at ends
      exact ⟨ends.1, .done checked ends.2⟩

theorem Loader.load_ends (enforce : Bool) (settings : LoadSettings) {p : Progress (Database V)}
    (ready : Ready vs m p) (root : t.RootedIn m) :
    Ready vs m (outcome (load (store vs enforce) settings t) p).2 ∧
      LoadEnds vs m enforce settings t p.store (outcome (load (store vs enforce) settings t) p).1
        (outcome (load (store vs enforce) settings t) p).2.store := by
  -- The hierarchy comes back from the database in another order, which makes no difference to a load.
  obtain ⟨g, same, read⟩ := ready.consistent.hierarchy ideal enforce
  rw [outcome_load read, loadWith_perm _ _ same]
  exact loadWith_ends compiles ideal enforce settings ready root

end Load

/-! ### Several loads -/

/-- A tree to be loaded, by one of several loaders. -/
structure LoadCall where
  loader : Nat
  settings : LoadSettings
  tree : Tree

/-- A database, and what each of several loaders remembers of its columns. -/
structure LoadState (V : Type) where
  database : Database V
  columns : Nat → ColumnCache

namespace LoadState

variable {V : Type} (vs : ValueSystem V) (enforce : Bool)

def founded (schema : Schema) : LoadState V where
  database := ((store vs enforce).apply schema.statements {}).2
  columns := fun _ => .empty

def load (s : LoadState V) (c : LoadCall) : Except LoadError LoadReport × LoadState V :=
  let (result, columns, database) := Loader.run (Loader.load (store vs enforce) c.settings c.tree)
    (s.columns c.loader) s.database
  (result, { database, columns := fun l => if l = c.loader then columns else s.columns l })

/-- The state after several loads, successful or not. -/
def loads (s : LoadState V) (calls : List LoadCall) : LoadState V :=
  calls.foldl (fun s c => (s.load vs enforce c).2) s

def AllLoad (s : LoadState V) : List LoadCall → Prop
  | [] => True
  | c :: rest => (∃ report, (s.load vs enforce c).1 = .ok report) ∧ AllLoad (s.load vs enforce c).2 rest

structure Sound (m : Model) (s : LoadState V) : Prop where
  consistent : Consistent vs m s.database
  columns : ∀ l, Remembers vs m (s.columns l)

variable {vs} {m : Model} {s : LoadState V} {calls : List LoadCall} (compiles : m.Compiles) (ideal : vs.Ideal)
include compiles ideal

theorem founded_database : (founded vs enforce m.schema).database = Database.founded vs m :=
  congrArg Prod.snd (applied_schema vs compiles ideal enforce)

theorem founded_sound : Sound vs m (founded vs enforce m.schema) := by
  refine ⟨?_, fun _ => remembers_empty⟩
  rw [founded_database enforce compiles ideal]
  exact founded_consistent compiles

theorem load_ends (sound : Sound vs m s) {c : LoadCall} (root : c.tree.RootedIn m) :
    Sound vs m (s.load vs enforce c).2 ∧ LoadEnds vs m enforce c.settings c.tree s.database (s.load vs enforce c).1
      (s.load vs enforce c).2.database := by
  have ready : Ready vs m { store := s.database, columns := s.columns c.loader } :=
    ⟨sound.consistent, sound.columns c.loader⟩
  obtain ⟨ready', ends⟩ := Loader.load_ends compiles ideal enforce c.settings ready root
  refine ⟨⟨ready'.consistent, fun l => ?_⟩, ends⟩
  by_cases own : l = c.loader
  · have new : (s.load vs enforce c).2.columns l = _ := if_pos own
    rw [new]
    exact ready'.columns
  · have old : (s.load vs enforce c).2.columns l = s.columns l := if_neg own
    rw [old]
    exact sound.columns l

theorem loads_sound (sound : Sound vs m s) (rooted : ∀ c ∈ calls, c.tree.RootedIn m) :
    Sound vs m (s.loads vs enforce calls) := by
  induction calls generalizing s with
  | nil => exact sound
  | cons c rest ih =>
    have first := (load_ends enforce compiles ideal sound (rooted c List.mem_cons_self)).1
    exact ih first fun d mem => rooted d (List.mem_cons_of_mem _ mem)

theorem loads_grows (sound : Sound vs m s) (rooted : ∀ c ∈ calls, c.tree.RootedIn m) :
    s.database.Grows (s.loads vs enforce calls).database := by
  induction calls generalizing s with
  | nil => exact .refl s.database
  | cons c rest ih =>
    have first := load_ends enforce compiles ideal sound (rooted c List.mem_cons_self)
    exact first.2.grows.trans (ih first.1 fun d mem => rooted d (List.mem_cons_of_mem _ mem))

end LoadState

/-! ### Boxes and items -/

namespace Sample

def box (size item : String) : Tree :=
  ⟨"Box", .ofList [("size", size)], [⟨"Item", .ofList [("N", item)], []⟩]⟩

theorem box_rooted (size item : String) : (box size item).RootedIn boxes := ⟨_, List.mem_cons_self, rfl⟩

def start : LoadState ColumnValue := .founded ColumnValue.system true boxes.schema

def loading (size item : String) : LoadCall := ⟨0, {}, box size item⟩

theorem start_loads : (start.load ColumnValue.system true (loading "7" "x")).1 =
    .ok { rowsInserted := 2, relationshipsInserted := 1, junctionsInserted := 1 } := by
  decide +kernel

def item (n : String) : LoadCall := ⟨0, {}, ⟨"Item", .ofList [("n", n)], []⟩⟩

theorem box_then_item : start.AllLoad ColumnValue.system true [loading "7" "x", item "x"] := by
  refine ⟨⟨_, start_loads⟩, ⟨{ rowsReused := 1, relationshipsInserted := 1 }, ?_⟩, trivial⟩
  decide +kernel

theorem item_then_box : start.AllLoad ColumnValue.system true [item "x", loading "7" "x"] := by
  refine ⟨⟨{ rowsInserted := 1, relationshipsInserted := 1 }, ?_⟩,
    ⟨{ rowsInserted := 1, rowsReused := 1, relationshipsInserted := 1, junctionsInserted := 1 }, ?_⟩, trivial⟩
  · decide +kernel
  · decide +kernel

end Sample

end TreeStore
