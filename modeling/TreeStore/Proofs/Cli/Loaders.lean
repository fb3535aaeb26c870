import TreeStore.Files.Folder
import TreeStore.Proofs.Cli.Session
import TreeStore.Proofs.Load.ColumnCache
import TreeStore.Proofs.Load.Session
import TreeStore.Proofs.Outcome

/-! One loader for all trees, or a new one for each. Nothing tells the two apart: neither how loads come out, nor what
they leave in the store, nor what a command prints. -/

namespace TreeStore

open Loader

inductive Deed where
  | load (t : Tree)
  | loadWith (h : Hierarchy) (t : Tree)
  | apply (stmts : List Statement)
  | register (e : HierarchyEntry)

namespace Deed

inductive Result where
  | loaded (result : Except LoadError LoadReport)
  | applied (report : ApplyReport)
  | registered (result : Except RegistryError Bool)

variable {σ : Type} (store : Store σ) (settings : LoadSettings)

/-- Does something, with what a loader remembers; gives how it came out, what is remembered then, and the store. -/
def perform (columns : ColumnCache) (s : σ) : Deed → Result × ColumnCache × σ
  | .load t =>
    let (result, after) := Loader.run (Loader.load store settings t) columns s
    (.loaded result, after)
  | .loadWith h t =>
    let (result, after) := Loader.run (Loader.loadWith store h settings t) columns s
    (.loaded result, after)
  | .apply stmts =>
    let (report, s) := store.apply stmts s
    (.applied report, columns, s)
  | .register e =>
    let (result, s) := Registry.register store e s
    (.registered result, columns, s)

/-- With one loader, which remembers columns from one load to the next. Gives also the store. -/
def byOne (d : Deed) (s : ColumnCache × σ) : (Result × σ) × ColumnCache × σ :=
  let (result, columns, s) := d.perform store settings s.1 s.2
  ((result, s), columns, s)

def byNew (d : Deed) (s : σ) : (Result × σ) × σ :=
  let (result, _, s) := d.perform store settings .empty s
  ((result, s), s)

end Deed

section Loaders

variable {σ : Type} {store : Store σ} {columns columns' : ColumnCache} {s : σ}

theorem Loader.Blind.run {x : LoadM σ LoadReport} (blind : Blind store x) (first : Coherent store columns s)
    (second : Coherent store columns' s) : (Loader.run x columns s).1 = (Loader.run x columns' s).1 ∧
      (Loader.run x columns s).2.2 = (Loader.run x columns' s).2.2 ∧
      Coherent store (Loader.run x columns s).2.1 (Loader.run x columns s).2.2 := by
  obtain ⟨same, alike⟩ := blind { store := s, columns } { store := s, columns := columns' } ⟨rfl, rfl, first, second⟩
  exact ⟨same, alike.stores, alike.first⟩

variable (stable : store.StableCatalog) (settings : LoadSettings)
include stable

theorem Deed.perform_alike (d : Deed) (first : Coherent store columns s) (second : Coherent store columns' s) :
    (d.perform store settings columns s).1 = (d.perform store settings columns' s).1 ∧
      (d.perform store settings columns s).2.2 = (d.perform store settings columns' s).2.2 ∧
      Coherent store (d.perform store settings columns s).2.1 (d.perform store settings columns s).2.2 := by
  cases d with
  | load t =>
    obtain ⟨same, after⟩ := (load_blind settings stable t).run first second
    exact ⟨congrArg Result.loaded same, after⟩
  | loadWith h t =>
    obtain ⟨same, after⟩ := (loadWith_blind h settings stable t).run first second
    exact ⟨congrArg Result.loaded same, after⟩
  | apply stmts => exact ⟨rfl, rfl, Store.apply_keeps stmts (fun _ _ r _ => Coherent.answer stable r) first⟩
  | register e => exact ⟨rfl, rfl, Registry.register_keeps e (fun r _ => Coherent.answer stable r) first⟩

theorem Deed.steps_alike (deeds : List Deed) (coherent : Coherent store columns s) :
    (steps (byOne store settings) deeds (columns, s)).1 = (steps (byNew store settings) deeds s).1 := by
  induction deeds generalizing columns s with
  | nil => rfl
  | cons d rest ih =>
    obtain ⟨result, left, after⟩ := d.perform_alike stable settings coherent (coherent_empty s)
    have later := ih after
    simp only [steps, byOne, byNew, ← result, ← left, later]

end Loaders

/-! ### Commands -/

namespace Cli

variable {m : Type → Type} [Monad m] (w : Workspace m) (verbose : Bool) (l : LoadSettings)

theorem store_stable : store.StableCatalog := Database.store_stable ColumnValue.system true

def loading (tree : Tree) (columns : ColumnCache) (db : Database ColumnValue) :
    (Except LoadError LoadReport × ColumnCache) × Database ColumnValue :=
  let (result, columns, db) := Loader.run (Loader.load store l tree) columns db
  ((result, columns), db)

theorem loading_alike (tree : Tree) {columns : ColumnCache} {db : Database ColumnValue}
    (coherent : Coherent store columns db) : ∃ known, Coherent store known (loading l tree .empty db).2 ∧
      loading l tree columns db = (((loading l tree .empty db).1.1, known), (loading l tree .empty db).2) := by
  obtain ⟨result, database, after⟩ := (load_blind l store_stable tree).run coherent (coherent_empty db)
  rw [database] at after
  exact ⟨_, after, Prod.ext (Prod.ext result rfl) database⟩

def report (path : String) (result : Except LoadError LoadReport) : Action m Unit := do
  printLoaded path (← require s!"Failed to load {path}" LoadError.report result)

theorem loadTrees_cons [LawfulMonad m] (columns : ColumnCache) (path : String) (rest : List String) :
    loadTrees w verbose l columns (path :: rest) = (do
      let tree ← requireInput s!"Failed to read instance document {path}" (w.read.tree path)
      remark verbose s!"{path}: {tree.nodeCount} nodes, depth {tree.depth}"
      let found ← onDatabase (loading l tree columns)
      report path found.1
      loadTrees w verbose l found.2 rest) := by
  unfold report
  simp only [loadTrees, bind_assoc]
  rfl

/-- What `runCommand` does, but with a new loader for each tree. -/
def runApart (i : Invocation) (path : String) (trees : List String) (shown : Bool) : Action m Unit := do
  let c ← settings w i
  let s ← compiled (← model w path)
  withDatabase w c.database.path do
    let report ← applySchema i.verbose s
    trees.forM fun tree => loadTrees w i.verbose c.load .empty [tree]
    if shown then
      line ""
      displayTables c.rowLimit []
    if !report.isClean then
      message s!"{report.failed.length} schema statement(s) failed; see the apply report above"
      throw .printed

variable [LawfulMonad m]

theorem Prints.report (path : String) (result : Except LoadError LoadReport) :
    Prints (Cli.report path result : Action m Unit) :=
  .bind (.require _ _ _) fun _ => .line _

theorem loadTrees_apart (paths : List String) {columns : ColumnCache} {t : Session}
    (coherent : Coherent store columns t.database) : inSession (loadTrees w verbose l columns paths) t =
      inSession (paths.forM fun path => loadTrees w verbose l .empty [path]) t := by
  induction paths generalizing columns t with
  | nil => rfl
  | cons path rest ih =>
    rw [List.forM_eq_forM, List.forM_cons, loadTrees_cons, loadTrees_cons, ← List.forM_eq_forM]
    simp only [bind_assoc]
    refine inSession_input_congr fun tree => (Prints.remark verbose _).congr fun _ t₁ same => ?_
    rw [← same] at coherent
    obtain ⟨known, after, eq⟩ := loading_alike l tree coherent
    rw [inSession_bind, inSession_bind, inSession_database, inSession_database, pure_bind, pure_bind, eq]
    refine (Prints.report path _).congr fun _ t₂ same => ?_
    rw [loadTrees, pure_bind]
    apply ih
    rw [same]
    exact after

theorem runCommand_apart (i : Invocation) (path : String) (trees : List String) (shown : Bool) :
    runCommand w i path trees shown = runApart w i path trees shown := by
  have each : ∀ c : Config, loadTrees w i.verbose c.load .empty trees =
      trees.forM fun tree => loadTrees w i.verbose c.load .empty [tree] := fun c => by
    funext t
    exact loadTrees_apart w i.verbose c.load trees (coherent_empty t.database)
  unfold runCommand runApart
  simp only [each]

end Cli

/-- One loader or many: every deed comes out the same and leaves the same store, and so does the command that applies a
schema and loads trees. -/
theorem loaders_alike {σ : Type} {store : Store σ} (stable : store.StableCatalog) (settings : LoadSettings)
    (deeds : List Deed) (s : σ) {m : Type → Type} [Monad m] [LawfulMonad m] (w : Workspace m) (i : Cli.Invocation)
    (path : String) (trees : List String) (shown : Bool) :
    (steps (Deed.byOne store settings) deeds (.empty, s)).1 = (steps (Deed.byNew store settings) deeds s).1 ∧
      Cli.runCommand w i path trees shown = Cli.runApart w i path trees shown :=
  ⟨Deed.steps_alike stable settings deeds (coherent_empty s), Cli.runCommand_apart w i path trees shown⟩

namespace Sample

/-- A load for which there are no tables yet, and one for which there are. -/
def deeds : List Deed :=
  [.loadWith boxes.hierarchy (box "7" "x"), .apply boxes.schema.statements, .load (box "7" "x")]

def invocation : Cli.Invocation where
  verbose := false
  config := none
  database := none
  command := .run "boxes.yml" ["a.yml", "b.yml"] true

end Sample

theorem loaders_alike_boxes :
    (steps (Deed.byOne Cli.store {}) Sample.deeds (.empty, {})).1 = (steps (Deed.byNew Cli.store {}) Sample.deeds {}).1 ∧
      Cli.runCommand Folder.workspace Sample.invocation "boxes.yml" ["a.yml", "b.yml"] true =
        Cli.runApart Folder.workspace Sample.invocation "boxes.yml" ["a.yml", "b.yml"] true :=
  loaders_alike Cli.store_stable {} Sample.deeds {} Folder.workspace Sample.invocation "boxes.yml" ["a.yml", "b.yml"] true

/-- In the end one loader remembers the columns of all tables that were asked for, under small names. -/
example : (steps (Deed.byOne Cli.store {}) Sample.deeds (.empty, {})).2.1.keys =
    ["box", "item", "item_relationships", "relation_box_in"] := by
  decide +kernel

end TreeStore
