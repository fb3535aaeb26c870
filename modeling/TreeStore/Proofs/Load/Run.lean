import TreeStore.Proofs.Load.Origin
import TreeStore.Proofs.Load.Permuted

/-! Loading a tree, node after node. Every node that is loaded is recorded in the end, no other rows are added,
and loading the nodes for another time leaves the database as it is. -/

namespace TreeStore

open Database Loader

variable {V : Type} (vs : ValueSystem V) (m : Model)

inductive Loaded (settings : LoadSettings) :
    List Trail → Database V → LoadReport → Database V → LoadReport → Prop
  | nil (db : Database V) (report : LoadReport) : Loaded settings [] db report db report
  | cons {x : Trail} {rest : List Trail} {db₁ db₂ db₃ : Database V} {r₁ r₂ r₃ : LoadReport} (lawful : Lawful m x.line)
      (knows : db₁.Knows vs x.above) (first : NodeLoaded vs m settings x db₁ r₁ db₂ r₂)
      (others : Loaded settings rest db₂ r₂ db₃ r₃) : Loaded settings (x :: rest) db₁ r₁ db₃ r₃

/-- Nodes are loaded one after another, until one is refused. -/
inductive Stopped (enforce : Bool) (settings : LoadSettings) :
    List Trail → Database V → LoadReport → LoadError → Database V → Prop
  | here {x : Trail} {rest : List Trail} {db₁ db₂ : Database V} {r₁ : LoadReport} {error : LoadError}
      (lawful : Lawful m x.line) (refused : NodeRefused vs m enforce x db₁ error db₂) :
      Stopped enforce settings (x :: rest) db₁ r₁ error db₂
  | later {x : Trail} {rest : List Trail} {db₁ db₂ db₃ : Database V} {r₁ r₂ : LoadReport} {error : LoadError}
      (lawful : Lawful m x.line) (knows : db₁.Knows vs x.above) (first : NodeLoaded vs m settings x db₁ r₁ db₂ r₂)
      (others : Stopped enforce settings rest db₂ r₂ error db₃) : Stopped enforce settings (x :: rest) db₁ r₁ error db₃

variable {vs m} {enforce : Bool} {settings : LoadSettings} {xs ys : List Trail} {db db' db'' : Database V}
  {report report' report'' : LoadReport} {error : LoadError}

theorem Loaded.append (first : Loaded vs m settings xs db report db' report')
    (second : Loaded vs m settings ys db' report' db'' report'') :
    Loaded vs m settings (xs ++ ys) db report db'' report'' := by
  induction first with
  | nil db report => exact second
  | cons lawful knows first others ih => exact .cons lawful knows first (ih second)

theorem Loaded.stopped (first : Loaded vs m settings xs db report db' report')
    (second : Stopped vs m enforce settings ys db' report' error db'') :
    Stopped vs m enforce settings (xs ++ ys) db report error db'' := by
  induction first with
  | nil db report => exact second
  | cons lawful knows first others ih => exact .later lawful knows first (ih second)

theorem Stopped.append (stopped : Stopped vs m enforce settings xs db report error db') (ys : List Trail) :
    Stopped vs m enforce settings (xs ++ ys) db report error db' := by
  induction stopped with
  | here lawful refused => exact .here lawful refused
  | later lawful knows first others ih => exact .later lawful knows first ih

theorem Loaded.grows (loaded : Loaded vs m settings xs db report db' report') : db.Grows db' := by
  induction loaded with
  | nil db report => exact .refl db
  | cons lawful knows first others ih => exact first.grows.trans ih

theorem Stopped.grows (stopped : Stopped vs m enforce settings xs db report error db') : db.Grows db' := by
  induction stopped with
  | here lawful refused => exact refused.grows
  | later lawful knows first others ih => exact first.grows.trans ih

theorem Loaded.settled (loaded : Loaded vs m settings xs db report db' report') :
    report'.settled = xs.foldl (LoadReport.again m settings) report.settled := by
  induction loaded with
  | nil db report => rfl
  | cons lawful knows first others ih => rw [ih, first.settled knows, List.foldl_cons]

/-- Each node is inserted, reused or a container. -/
theorem Loaded.nodes (loaded : Loaded vs m settings xs db report db' report') :
    report'.nodes = report.nodes + xs.length := by
  rw [← LoadReport.nodes_settled, loaded.settled, ← LoadReport.nodes_settled report]
  generalize report.settled = r
  clear loaded
  induction xs generalizing r with
  | nil => rfl
  | cons x rest ih =>
    rw [List.foldl_cons, ih, LoadReport.nodes_again, List.length_cons]
    omega

section Consistency

variable (compiles : m.Compiles)
include compiles

theorem Loaded.of_recorded (loaded : Loaded vs m settings xs db report db' report') (before : Consistent vs m db)
    (recorded : ∀ x ∈ xs, Recorded vs m settings db x) :
    db' = db ∧ report' = xs.foldl (LoadReport.again m settings) report := by
  induction loaded with
  | nil db report => exact ⟨rfl, rfl⟩
  | cons lawful knows first others ih =>
    obtain ⟨rfl, rfl⟩ := first.of_recorded compiles (recorded _ List.mem_cons_self) before
    exact ih before fun x mem => recorded x (List.mem_cons_of_mem _ mem)

theorem Stopped.not_of_recorded (stopped : Stopped vs m enforce settings xs db report error db')
    (before : Consistent vs m db) (recorded : ∀ x ∈ xs, Recorded vs m settings db x) : False := by
  induction stopped with
  | here lawful refused => exact refused.not_of_recorded compiles (recorded _ List.mem_cons_self) before
  | later lawful knows first others ih =>
    obtain ⟨rfl, rfl⟩ := first.of_recorded compiles (recorded _ List.mem_cons_self) before
    exact ih before fun x mem => recorded x (List.mem_cons_of_mem _ mem)

variable (ideal : vs.Ideal)
include ideal

theorem Loaded.consistent (loaded : Loaded vs m settings xs db report db' report') (before : Consistent vs m db) :
    Consistent vs m db' := by
  induction loaded with
  | nil db report => exact before
  | cons lawful knows first others ih => exact ih (first.consistent compiles ideal before)

theorem Loaded.recorded (loaded : Loaded vs m settings xs db report db' report') (before : Consistent vs m db) :
    ∀ x ∈ xs, Recorded vs m settings db' x := by
  induction loaded with
  | nil db report => exact fun _ mem => nomatch mem
  | cons lawful knows first others ih =>
    intro x mem
    rcases List.mem_cons.1 mem with rfl | mem
    · exact (first.recorded compiles ideal before knows).grows others.grows
    · exact ih (first.consistent compiles ideal before) x mem

theorem Loaded.origin (loaded : Loaded vs m settings xs db report db' report') (before : Consistent vs m db)
    {u : Table} (hu : u ∈ m.tables) {row : Cells V} (mem : row ∈ db'.rowsOf u.name) :
    row ∈ db.rowsOf u.name ∨ ∃ x ∈ xs, Origin vs m settings x db' u row := by
  induction loaded with
  | nil db report => exact .inl mem
  | cons lawful knows first others ih =>
    rcases ih (first.consistent compiles ideal before) mem with mem | ⟨x, hx, origin⟩
    · rcases first.origin compiles hu ideal before knows mem with mem | origin
      · exact .inl mem
      · have known := first.knows compiles ideal before knows
        exact .inr ⟨_, List.mem_cons_self, origin.grows others.grows known⟩
    · exact .inr ⟨x, List.mem_cons_of_mem _ hx, origin⟩

end Consistency

namespace Loader

/-- The outcome for a part of a tree: all its nodes are loaded, or some until one is refused. -/
def Ends (vs : ValueSystem V) (m : Model) (enforce : Bool) (settings : LoadSettings) (xs : List Trail)
    (p : Progress (Database V)) (ended : Except LoadError Unit × Progress (Database V)) : Prop :=
  Ready vs m ended.2 ∧
    match ended.1 with
    | .ok () => Loaded vs m settings xs p.store p.report ended.2.store ended.2.report
    | .error error => Stopped vs m enforce settings xs p.store p.report error ended.2.store

theorem Ends.after {p q : Progress (Database V)} {ended : Except LoadError Unit × Progress (Database V)}
    (loaded : Loaded vs m settings xs p.store p.report q.store q.report)
    (ends : Ends vs m enforce settings ys q ended) :
    Ends vs m enforce settings (xs ++ ys) p ended := by
  obtain ⟨result, w⟩ := ended
  obtain ⟨ready, ends⟩ := ends
  refine ⟨ready, ?_⟩
  cases result with
  | ok => exact loaded.append ends
  | error error => exact loaded.stopped ends

mutual

theorem visit_ends (compiles : m.Compiles) (ideal : vs.Ideal) (path : NodePath) (above : List Label) : (t : Tree) →
    (lawful : ∀ x ∈ t.trailsAt path above, Lawful m x.line) → (p : Progress (Database V)) → (ready : Ready vs m p) →
    (knows : p.store.Knows vs above) →
    Ends vs m enforce settings (t.trailsAt path above) p (outcome (visit (store vs enforce) m.hierarchy settings path
      (p.store.parentOf vs above) (p.store.contextOf vs above) t) p)
  | ⟨type, attributes, children⟩, lawful, p, ready, knows => by
    have own := lawful _ List.mem_cons_self
    obtain ⟨q, ready', ⟨loaded, done⟩ | ⟨error, refused, failed⟩⟩ :=
      visitNode_outcome enforce compiles ideal ready settings own knows
    · have known := loaded.knows compiles ideal ready.consistent knows
      have below := visitChildren_ends compiles ideal path ⟨type, attributes⟩ above 0 children
        (fun x mem => lawful x (List.mem_cons_of_mem _ mem)) q ready' known
      rw [visit, outcome_bind_ok done]
      have first : Loaded vs m settings [⟨path, ⟨type, attributes⟩, above⟩] p.store p.report q.store q.report :=
        .cons own knows loaded (.nil _ _)
      exact .after first below
    · rw [visit, outcome_bind_error failed]
      exact ⟨ready', .here own refused⟩

theorem visitChildren_ends (compiles : m.Compiles) (ideal : vs.Ideal) (path : NodePath) (parent : Label)
    (above : List Label) (index : Nat) : (ts : List Tree) →
    (lawful : ∀ x ∈ Tree.trailsBelow path (parent :: above) index ts, Lawful m x.line) →
    (p : Progress (Database V)) → (ready : Ready vs m p) → (knows : p.store.Knows vs (parent :: above)) →
    Ends vs m enforce settings (Tree.trailsBelow path (parent :: above) index ts) p
      (outcome (visitChildren (store vs enforce) m.hierarchy settings path (p.store.parentOf vs (parent :: above))
        (p.store.contextOf vs (parent :: above)) index ts) p)
  | [], _, p, ready, _ => ⟨ready, .nil _ _⟩
  | c :: rest, lawful, p, ready, knows => by
    have first := visit_ends compiles ideal (path.child c.type index) (parent :: above) c
      (fun x mem => lawful x (List.mem_append_left _ mem)) p ready knows
    rw [visitChildren, outcome_bind]
    rcases ended : outcome (visit (store vs enforce) m.hierarchy settings (path.child c.type index)
      (p.store.parentOf vs (parent :: above)) (p.store.contextOf vs (parent :: above)) c) p with ⟨_ | _, q⟩
    · rw [ended] at first
      exact ⟨first.1, Stopped.append first.2 _⟩
    · rw [ended] at first
      have loaded : Loaded vs m settings _ p.store p.report q.store q.report := first.2
      have others := visitChildren_ends compiles ideal path parent above (index + 1) rest
        (fun x mem => lawful x (List.mem_append_right _ mem)) q first.1 (loaded.grows.knows knows)
      rw [loaded.grows.parentOf knows, loaded.grows.contextOf knows] at others
      exact .after loaded others

end

end Loader

end TreeStore
