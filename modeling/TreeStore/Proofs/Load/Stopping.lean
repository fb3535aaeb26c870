import TreeStore.Proofs.Load.Gains
import TreeStore.Proofs.Load.Rejection

/-! Loads that fail at a node. The nodes before it are loaded, as if the tree ended there; the node itself may have
left a row of its own and a row of its surroundings; about the nodes after it the store has not been asked. -/

namespace TreeStore

open Database Loader

variable {σ V : Type}

/-! ### Logged stores -/

theorem Store.logged_mirrors (store : Store σ) : store.logged.Mirrors store fun s t => s.1 = t := by
  rintro r ⟨s, log⟩ _ rfl
  exact ⟨rfl, rfl⟩

namespace Loader

variable {store : Store σ} {h : Hierarchy} {settings : LoadSettings} {t : Tree} {p q : Progress σ}
  {handed : List Handed}

theorem check_upTo (checked : t.check h settings.maxDepth = .ok ()) (n : Nat) :
    (t.upTo n).check h settings.maxDepth = .ok () := by
  rw [Tree.check_eq_ok, Tree.conforms_iff] at checked ⊢
  intro x mem
  rw [Tree.trails_upTo] at mem
  exact checked x (List.mem_of_mem_take mem)

structure WalkStops (store : Store σ) (h : Hierarchy) (settings : LoadSettings) (before : List Trail) (x : Trail)
    (p p₁ : Progress σ) (handed : List Handed) (e : LoadError) (q : Progress σ) : Prop where
  passed : outcome (before.foldlM (walkNode store h settings) []) p = (.ok handed, p₁)
  stopped : outcome (walkNode store h settings handed x) p₁ = (.error e, q)

variable {before after : List Trail} {x : Trail} {p₁ : Progress σ} {e : LoadError}

/-- It makes no difference what nodes come after the one at which a walk fails. -/
theorem WalkStops.fails (stops : WalkStops store h settings before x p p₁ handed e q) (after : List Trail) :
    outcome ((before ++ x :: after).foldlM (walkNode store h settings) []) p = (.error e, q) := by
  rw [List.append_cons, List.foldlM_append]
  have first := (foldlM_next (x := x) stops.passed).trans stops.stopped
  exact outcome_bind_error first

theorem WalkStops.logged (stops : WalkStops store h settings before x p p₁ handed e q) (log : List Request) :
    ∃ p₁' q', WalkStops store.logged h settings before x ⟨(p.store, log), p.columns, p.report⟩ p₁' handed e q' := by
  have coupling := store.logged_mirrors.coupling
  have walk : Couples _ (before.foldlM (walkNode store.logged h settings) [])
      (before.foldlM (walkNode store h settings) []) :=
    .foldlM (fun handed x _ => coupling.walkNode h settings handed x) []
  obtain ⟨same, matched⟩ := walk ⟨(p.store, log), p.columns, p.report⟩ p ⟨rfl, rfl, rfl⟩
  rw [stops.passed] at same matched
  obtain ⟨same', _⟩ := coupling.walkNode h settings handed x _ _ matched
  rw [stops.stopped] at same'
  exact ⟨_, _, Prod.ext same rfl, Prod.ext same' rfl⟩

theorem loadWith_stops (checked : t.check h settings.maxDepth = .ok ()) (nodes : t.trails = before ++ x :: after)
    (stops : WalkStops store h settings before x { p with report := {} } p₁ handed e q) :
    outcome (loadWith store h settings t) p = (.error e, q) := by
  rw [loadWith_walk store checked, nodes, stops.fails after]

theorem loadWith_passes (checked : t.check h settings.maxDepth = .ok ()) {handed : List Handed}
    (passed : outcome (t.trails.foldlM (walkNode store h settings) []) { p with report := {} } = (.ok handed, q)) :
    outcome (loadWith store h settings t) p = (.ok q.report, q) := by
  rw [loadWith_walk store checked, passed]

/-- A load that fails at a node has passed the check and read the hierarchy. -/
theorem run_fails {columns columns' : ColumnCache} {s s' : σ} {path : NodePath}
    (failed : run (load store settings t) columns s = (.error e, columns', s')) (place : e.At path) :
    ∃ h s₀ q before x after p₁ handed, Registry.load store s = (.ok h, s₀) ∧ q.store = s' ∧
      t.check h settings.maxDepth = .ok () ∧ t.trails = before ++ x :: after ∧
      WalkStops store h settings before x ⟨s₀, columns, {}⟩ p₁ handed e q := by
  rcases read : Registry.load store s with ⟨error | h, s₀⟩
  · rw [run_load_error store read] at failed
    cases failed
    cases place
  · rw [run_load store read] at failed
    cases checked : t.check h settings.maxDepth with
    | error found =>
      rw [loadWith_rejected store checked] at failed
      cases failed
      cases place
    | ok =>
      rw [loadWith_walk store checked] at failed
      rcases ended : outcome (t.trails.foldlM (walkNode store h settings) []) ⟨s₀, columns, {}⟩ with ⟨error | handed, q⟩
      · rw [ended] at failed
        obtain ⟨before, x, after, handed, p₁, nodes, passed, stopped⟩ := foldlM_fails ended
        cases failed
        exact ⟨h, s₀, q, before, x, after, p₁, handed, rfl, rfl, checked, nodes, passed, stopped⟩
      · rw [ended] at failed
        cases failed

end Loader

/-! ### Stops -/

/-- A load has stopped at a node `x`, after the nodes `before`, of which the store has the rows in a state `s₁`. -/
structure Stops (store : Store σ) (vs : ValueSystem V) (view : σ → Database V) (settings : LoadSettings) (t : Tree)
    (columns : ColumnCache) (s s' : σ) (h : Hierarchy) (before : List Trail) (x : Trail) (s₁ : σ) : Prop where
  /-- The same is asked of the store for the tree without the nodes after `x`, and it comes to the same. -/
  later : (t.upTo before.length).trails = before ++ [x] ∧ ∀ log,
    run (load store.logged settings (t.upTo before.length)) columns (s, log) =
      run (load store.logged settings t) columns (s, log)
  /-- The tree without `x` and the nodes after it is loaded. -/
  earlier : before ≠ [] → (t.upTo (before.length - 1)).trails = before ∧
    ∃ report columns₁, run (load store settings (t.upTo (before.length - 1))) columns s = (.ok report, columns₁, s₁)
  root : before = [] → view s₁ = view s
  own : (view s₁).GainsOwn vs h x.node (view s')
  grows : (view s).Grows (view s')

namespace Loader

variable {store : Store σ} {vs : ValueSystem V} {enforce : Bool} {view : σ → Database V}

theorem Registry.load_view (holds : store.Holds vs enforce view) (s : σ) : view (Registry.load store s).2 = view s := by
  have kept : view (store.answer (.select Registry.selectAll) s).2 = view s := by
    rcases holds (.select Registry.selectAll) s with ⟨_, moved⟩ | ⟨_, _, kept⟩
    · exact moved
    · exact kept
  unfold TreeStore.Registry.load
  rcases answered : store.answer (.select Registry.selectAll) s with ⟨_ | _, s'⟩ <;> simpa [answered] using kept

theorem walkNode_grows (holds : store.Holds vs enforce view) (h : Hierarchy) (settings : LoadSettings)
    (handed : List Handed) (x : Trail) (p : Progress σ) :
    (view p.store).Grows (view (outcome (walkNode store h settings handed x) p).2.store) := by
  obtain ⟨parent, context, same, _⟩ := walkNode_visits store h settings handed x p
  have leaves := visitNode_leaves holds h settings x.path parent context x.node
  rw [same]
  rcases ended : outcome (visitNode store h settings x.path parent context x.node.type x.node.attributes) p with
    ⟨error | found, q⟩
  · exact (leaves.error ended).grows
  · exact (leaves.ok ended).grows

theorem walk_grows (holds : store.Holds vs enforce view) (h : Hierarchy) (settings : LoadSettings)
    (handed : List Handed) (xs : List Trail) (p : Progress σ) :
    (view p.store).Grows (view (outcome (xs.foldlM (walkNode store h settings) handed) p).2.store) :=
  foldlM_keeps (I := fun q => (view p.store).Grows (view q.store))
    (fun x _ handed q grows => grows.trans (walkNode_grows holds h settings handed x q)) (.refl _)

theorem load_stops (holds : store.Holds vs enforce view) {settings : LoadSettings} {t : Tree}
    {columns columns' : ColumnCache} {s s' : σ} {e : LoadError} {path : NodePath}
    (failed : run (load store settings t) columns s = (.error e, columns', s')) (place : e.At path) :
    ∃ h before x after s₁, t.trails = before ++ x :: after ∧ x.path = path ∧
      Stops store vs view settings t columns s s' h before x s₁ := by
  obtain ⟨h, s₀, q, before, x, after, p₁, handed, read, rfl, checked, nodes, stops⟩ := run_fails failed place
  have start : view s₀ = view s := by
    have kept := Registry.load_view holds s
    rwa [read] at kept
  obtain ⟨parent, context, moved, thrown⟩ := walkNode_visits store h settings handed x p₁
  rw [stops.stopped] at moved thrown
  have visited : outcome (visitNode store h settings x.path parent context x.node.type x.node.attributes) p₁ =
      (.error e, q) := Prod.ext (thrown e rfl) moved.symm
  have own := (visitNode_leaves holds h settings x.path parent context x.node).error visited
  have place' : e.At x.path :=
    visitNode_throws store h settings x.path parent context _ _ p₁ e (congrArg Prod.fst visited)
  have same : x.path = path := by
    cases place <;> cases place' <;> rfl
  -- Three trees are walked: the whole one, the one that ends with `x`, and the one that ends before it.
  have upTo : (t.upTo before.length).trails = before ++ [x] := by
    rw [Tree.trails_upTo, nodes, List.append_cons]
    exact List.take_left' List.length_append
  have grows : (view s).Grows (view p₁.store) := by
    have walked := walk_grows holds h settings [] before ⟨s₀, columns, {}⟩
    rwa [stops.passed, start] at walked
  refine ⟨h, before, x, after, p₁.store, nodes, same, ⟨upTo, fun log => ?_⟩, fun some => ?_, fun none => ?_, own,
    grows.trans own.grows⟩
  · have readLogged : Registry.load store.logged (s, log) = (.ok h, s₀, log ++ [.select Registry.selectAll]) := by
      rw [Registry.load_logged, read]
    obtain ⟨p₁', q', stops'⟩ := stops.logged (log ++ [.select Registry.selectAll])
    rw [run_load store.logged readLogged, run_load store.logged readLogged, loadWith_stops checked nodes stops',
      loadWith_stops (check_upTo checked _) upTo stops']
  · have earlier : (t.upTo (before.length - 1)).trails = before := by
      rw [Tree.trails_upTo, nodes, Nat.sub_add_cancel (List.length_pos_iff.2 some), List.take_left]
    refine ⟨earlier, p₁.report, p₁.columns, ?_⟩
    have passed := stops.passed
    rw [← earlier] at passed
    rw [run_load store read, loadWith_passes (check_upTo checked _) passed]
  · subst none
    have first := congrArg (view ·.2.store) stops.passed
    exact first.symm.trans start

end Loader

/-- A load that fails at a node, whatever is in the database, leaves the nodes before it loaded, and at most a row of
the node and a row of its surroundings besides; about the nodes after it nothing is asked. It is the same if requests
fail from outside. -/
theorem failed_load_stops (vs : ValueSystem V) (enforce : Bool) (settings : LoadSettings) (t : Tree)
    (columns : ColumnCache) (db : Database V) :
    (∀ e path columns' db', run (load (store vs enforce) settings t) columns db = (.error e, columns', db') →
      e.At path → ∃ h before x after db₁, t.trails = before ++ x :: after ∧ x.path = path ∧
        (∃ u, t.follow? path.steps = some u ∧ u.label = x.node) ∧
        Stops (store vs enforce) vs id settings t columns db db' h before x db₁) ∧
    ∀ faults e path columns' s',
      run (load (store vs enforce).failing settings t) columns (db, faults) = (.error e, columns', s') →
      e.At path → ∃ h before x after s₁, t.trails = before ++ x :: after ∧ x.path = path ∧
        (∃ u, t.follow? path.steps = some u ∧ u.label = x.node) ∧
        Stops (store vs enforce).failing vs (·.1) settings t columns (db, faults) s' h before x s₁ := by
  have node : ∀ {before after : List Trail} {x : Trail}, t.trails = before ++ x :: after →
      ∃ u, t.follow? x.path.steps = some u ∧ u.label = x.node := fun nodes =>
    (Tree.trails_follow (nodes ▸ List.mem_append_right _ List.mem_cons_self)).2
  constructor
  · intro e path columns' db' failed place
    obtain ⟨h, before, x, after, db₁, nodes, rfl, stops⟩ := load_stops (store_holds vs enforce) failed place
    exact ⟨h, before, x, after, db₁, nodes, rfl, node nodes, stops⟩
  · intro faults e path columns' s' failed place
    obtain ⟨h, before, x, after, s₁, nodes, rfl, stops⟩ := load_stops (store_holds vs enforce).failing failed place
    exact ⟨h, before, x, after, s₁, nodes, rfl, node nodes, stops⟩

namespace Sample

/-- A box whose second item has an attribute that items do not have. -/
def overweight : Tree := ⟨"Box", .ofList [("size", "7")], [⟨"Item", .ofList [("n", "x")], []⟩,
  ⟨"Item", .ofList [("n", "y"), ("weight", "1")], []⟩, ⟨"Item", .ofList [("n", "z")], []⟩]⟩

end Sample

theorem failed_load_stops_overweight : ∃ columns' db', run (load (store ColumnValue.system true) {} Sample.overweight)
      .empty Sample.start.database =
      (.error (.misfit ⟨"Box", [("Item", 1)]⟩ (.notColumn "weight" "Item")), columns', db') ∧
    ∃ h before x after db₁, Sample.overweight.trails = before ++ x :: after ∧ x.path = ⟨"Box", [("Item", 1)]⟩ ∧
      (∃ u, Sample.overweight.follow? [("Item", 1)] = some u ∧ u.label = x.node) ∧
      Stops (store ColumnValue.system true) ColumnValue.system id {} Sample.overweight .empty Sample.start.database db'
        h before x db₁ := by
  have failed : run (load (store ColumnValue.system true) {} Sample.overweight) .empty Sample.start.database =
      (.error (.misfit ⟨"Box", [("Item", 1)]⟩ (.notColumn "weight" "Item")), _, _) :=
    Prod.ext (by decide +kernel) rfl
  exact ⟨_, _, failed, (failed_load_stops ColumnValue.system true {} Sample.overweight .empty
    Sample.start.database).1 _ _ _ _ failed (.misfit _)⟩

end TreeStore
