import TreeStore.Proofs.Load.Errors
import TreeStore.Proofs.Load.Keeping

/-! Loads that are cut short. When a request fails for a reason outside the database, the load ends there, in a
state that it would have passed through otherwise; every such state is as consistent as those in which loads end of
themselves. -/

namespace TreeStore

open Database Loader

/-- What is to fail from outside: for each request in turn, its error if it is to fail. -/
abbrev Faults := List (Option StoreError)

/-- A store some of whose requests fail from outside, without effect. -/
def Store.failing {σ : Type} (store : Store σ) : Store (σ × Faults) where
  answer r s := match s.2.head?.join with
    | some error => (.error error, s.1, s.2.tail)
    | none =>
      let (result, s') := store.answer r s.1
      (result, s', s.2.tail)

theorem Store.failing_answer {σ : Type} (store : Store σ) (r : Request) (s : σ) (faults : Faults) :
    (∃ error, store.failing.answer r (s, faults) = (.error error, s, faults.tail)) ∨
      store.failing.answer r (s, faults) = ((store.answer r s).1, (store.answer r s).2, faults.tail) := by
  simp only [failing]
  cases faults.head?.join with
  | some error => exact .inl ⟨error, rfl⟩
  | none => exact .inr rfl

theorem Registry.load_failing {σ : Type} (store : Store σ) (s : σ) (faults : Faults) :
    (∃ error, Registry.load store.failing (s, faults) = (.error (.store error), s, faults.tail)) ∨
      Registry.load store.failing (s, faults) =
        ((Registry.load store s).1, (Registry.load store s).2, faults.tail) := by
  unfold Registry.load
  rcases store.failing_answer (.select Registry.selectAll) s faults with ⟨error, failed⟩ | same
  · rw [failed]
    exact .inl ⟨error, rfl⟩
  · rw [same]
    refine .inr ?_
    rcases store.answer (.select Registry.selectAll) s with ⟨_ | _, _⟩ <;> rfl

namespace Loader

section Following

variable {σ α β : Type}

def Progress.failing (p : Progress σ) (faults : Faults) : Progress (σ × Faults) :=
  ⟨(p.store, faults), p.columns, p.report⟩

/-- From some progress, a part of a load on a failing store does what it does on the store itself, or it is cut
short at some progress of a kind. -/
def Follows (P : Progress σ → Prop) (y : LoadM (σ × Faults) α) (x : LoadM σ α) (p : Progress σ) : Prop :=
  ∀ faults, ∃ left, outcome y (p.failing faults) = ((outcome x p).1, (outcome x p).2.failing left) ∨
    ∃ error q, P q ∧ outcome y (p.failing faults) = (.error error, q.failing left)

variable {P : Progress σ → Prop} {p : Progress σ}

namespace Follows

theorem pure (a : α) : Follows P (Pure.pure a) (Pure.pure a) p := fun faults => ⟨faults, .inl rfl⟩

theorem fail (error : LoadError) : Follows P (throw error : LoadM _ α) (throw error) p :=
  fun faults => ⟨faults, .inl rfl⟩

theorem count (f : LoadReport → LoadReport) : Follows P (Loader.count f) (Loader.count f) p :=
  fun faults => ⟨faults, .inl rfl⟩

theorem bind {y : LoadM (σ × Faults) α} {x : LoadM σ α} {g : α → LoadM (σ × Faults) β} {f : α → LoadM σ β}
    (first : Follows P y x p) (next : ∀ a q, outcome x p = (.ok a, q) → Follows P (g a) (f a) q) :
    Follows P (y >>= g) (x >>= f) p := by
  intro faults
  obtain ⟨left, same | ⟨error, q, holds, cut⟩⟩ := first faults
  · rcases ended : outcome x p with ⟨error | a, q⟩
    · rw [ended] at same
      refine ⟨left, .inl ?_⟩
      rw [outcome_bind_error same, outcome_bind_error ended]
    · rw [ended] at same
      rw [outcome_bind_ok same, outcome_bind_ok ended]
      exact next a q ended left
  · exact ⟨left, .inr ⟨error, q, holds, outcome_bind_error cut⟩⟩

theorem lift_bind {x : Except LoadError α} {g : α → LoadM (σ × Faults) β} {f : α → LoadM σ β}
    (next : ∀ a, x = .ok a → Follows P (g a) (f a) p) : Follows P (liftM x >>= g) (liftM x >>= f) p := by
  cases x with
  | error error => exact fun faults => ⟨faults, .inl rfl⟩
  | ok a => exact next a rfl

theorem ask (store : Store σ) (path : NodePath) (r : Request) (holds : P p) :
    Follows P (Loader.ask store.failing path r) (Loader.ask store path r) p := by
  intro faults
  refine ⟨faults.tail, ?_⟩
  rcases store.failing_answer r p.store faults with ⟨error, failed⟩ | same
  · exact .inr ⟨_, p, holds, outcome_ask_error failed⟩
  · refine .inl ?_
    rcases answered : store.answer r p.store with ⟨error | a, s⟩
    · rw [answered] at same
      rw [outcome_ask_error answered, outcome_ask_error same]
      rfl
    · rw [answered] at same
      rw [outcome_ask_ok answered, outcome_ask_ok same]
      rfl

end Follows

variable (store : Store σ) (path : NodePath)

theorem remember_follows (table : String) (columns : List CatalogColumn) :
    Follows P (remember path table columns) (remember path table columns) p := by
  unfold remember
  split
  · exact .fail _
  · exact fun faults => ⟨faults, .inl rfl⟩

theorem columnsOf_follows (table : String) (holds : P p) :
    Follows P (columnsOf store.failing path table) (columnsOf store path table) p := by
  intro faults
  cases known : p.columns.get? (Text.lower table) with
  | some columns =>
    refine ⟨faults, .inl ?_⟩
    rw [columnsOf_known store path known, columnsOf_known store.failing path (p := p.failing faults) known]
  | none =>
    rw [columnsOf_unknown store path known, columnsOf_unknown store.failing path (p := p.failing faults) known]
    exact (Follows.ask store path _ holds).bind (fun columns q _ => remember_follows path table columns) faults

end Following

open Database

variable {V : Type}

structure ReadyWith (vs : ValueSystem V) (m : Model) (I : Database V → Prop) (p : Progress (Database V)) : Prop where
  ready : Ready vs m p
  holds : I p.store

variable {vs : ValueSystem V} {m : Model} {I : Database V → Prop} {enforce : Bool} {p : Progress (Database V)}

/-- A query leaves a database as it is. -/
theorem ask_select_outcome {path : NodePath} {query : Select} {rows : List Row} {q : Progress (Database V)}
    (asked : outcome (ask (store vs enforce) path (.select query)) p = (.ok rows, q)) : q = p := by
  have answered : (store vs enforce).answer (.select query) p.store = (p.store.select vs query, p.store) := rfl
  rcases ended : p.store.select vs query with error | found
  · rw [ended] at answered
    rw [outcome_ask_error answered] at asked
    cases asked
  · rw [ended] at answered
    rw [outcome_ask_ok answered] at asked
    cases asked
    rfl

theorem findOrInsert_follows (path : NodePath) (type : String) (values : List (String × Option Operand))
    (ready : ReadyWith vs m I p) : Follows (ReadyWith vs m I) (findOrInsert (store vs enforce).failing path type values)
      (findOrInsert (store vs enforce) path type values) p := by
  unfold findOrInsert
  refine (Follows.ask _ path _ ready).bind fun rows q asked => ?_
  obtain rfl := ask_select_outcome asked
  cases rows with
  | cons row others =>
    dsimp only
    split
    · exact .fail _
    · exact (Follows.count _).bind fun _ _ _ => .pure _
  | nil => exact (Follows.ask _ path _ ready).bind fun _ _ _ => (Follows.count _).bind fun _ _ _ => .pure _

theorem insertUnlessPresent_follows (path : NodePath) (table : String) (ids : List (String × Int))
    (nulls : List String) (ready : ReadyWith vs m I p) :
    Follows (ReadyWith vs m I) (insertUnlessPresent (store vs enforce).failing path table ids nulls)
      (insertUnlessPresent (store vs enforce) path table ids nulls) p := by
  unfold insertUnlessPresent
  refine (Follows.ask _ path _ ready).bind fun rows q asked => ?_
  obtain rfl := ask_select_outcome asked
  split
  · exact (Follows.ask _ path _ ready).bind fun _ _ _ => .pure _
  · exact .pure _

section Walk

variable (compiles : m.Compiles)
include compiles

/-- What is remembered stays right, whatever table is asked for. -/
theorem columnsOf_ready {path : NodePath} {table : String} {columns : List CatalogColumn} {q : Progress (Database V)}
    (ready : ReadyWith vs m I p) (asked : outcome (columnsOf (store vs enforce) path table) p = (.ok columns, q)) :
    ReadyWith vs m I q := by
  cases known : p.columns.get? (Text.lower table) with
  | some found =>
    rw [columnsOf_known _ path known] at asked
    cases asked
    exact ready
  | none =>
    have answered : (store vs enforce).answer (.columnsOf table) p.store =
        (.ok (p.store.columnsOf table), p.store) := rfl
    rw [columnsOf_unknown _ path known, outcome_bind_ok (outcome_ask_ok answered)] at asked
    unfold remember at asked
    split at asked
    · cases asked
    · cases asked
      refine ⟨⟨ready.ready.consistent, fun t mem found eq => ?_⟩, ready.holds⟩
      rw [TextMap.get?_insert] at eq
      split at eq
      · next same =>
        rw [← Option.some.inj eq, Database.columnsOf, p.store.table?_congr same.symm,
          ready.ready.consistent.table? compiles mem]
        rfl
      · exact ready.ready.columns t mem found eq

theorem upsert_follows (h : Hierarchy) (path : NodePath) (type : String) (attributes : TextMap String)
    (ready : ReadyWith vs m I p) : Follows (ReadyWith vs m I) (upsert (store vs enforce).failing h path type attributes)
      (upsert (store vs enforce) h path type attributes) p := by
  rw [upsert_eq, upsert_eq]
  refine (columnsOf_follows _ path type ready).bind fun columns q asked => ?_
  have ready' := columnsOf_ready compiles ready asked
  exact .lift_bind fun values _ => findOrInsert_follows path type values ready'

theorem recordRelationship_follows (path : NodePath) (leaf : String) (context : Context) (ready : ReadyWith vs m I p) :
    Follows (ReadyWith vs m I) (recordRelationship (store vs enforce).failing path leaf context)
      (recordRelationship (store vs enforce) path leaf context) p := by
  unfold recordRelationship
  refine (columnsOf_follows _ path _ ready).bind fun columns q asked => ?_
  have ready' := columnsOf_ready compiles ready asked
  refine (insertUnlessPresent_follows path _ _ _ ready').bind fun new _ _ => ?_
  split
  · exact .count _
  · exact .count _

theorem recordJunction_follows (h : Hierarchy) (path : NodePath) (parent child : String × Int) (ready : ReadyWith vs m I p) :
    Follows (ReadyWith vs m I) (recordJunction (store vs enforce).failing h path parent child)
      (recordJunction (store vs enforce) h path parent child) p := by
  cases registered : h.relation? parent.1 child.1 with
  | none =>
    unfold recordJunction
    rw [registered]
    exact .pure _
  | some relation =>
    rw [recordJunction_eq _ h path registered, recordJunction_eq _ h path registered]
    refine (columnsOf_follows _ path _ ready).bind fun columns q asked => ?_
    have ready' := columnsOf_ready compiles ready asked
    exact .lift_bind fun _ _ => (insertUnlessPresent_follows path _ _ _ ready').bind fun new _ _ => .count _

theorem surround_follows (h : Hierarchy) (path : NodePath) (type : String) (context : Context) (ready : ReadyWith vs m I p) :
    Follows (ReadyWith vs m I) (surround (store vs enforce).failing h path type context)
      (surround (store vs enforce) h path type context) p := by
  unfold surround
  split
  · exact recordRelationship_follows compiles path type context ready
  · exact .pure _

theorem pair_follows (h : Hierarchy) (settings : LoadSettings) (path : NodePath) (parent : Option (String × Int))
    (child : String × Int) (ready : ReadyWith vs m I p) :
    Follows (ReadyWith vs m I) (pair (store vs enforce).failing h settings path parent child)
      (pair (store vs enforce) h settings path parent child) p := by
  unfold pair
  split
  · split
    · exact recordJunction_follows compiles h path _ _ ready
    · exact .pure _
  · exact .pure _

variable (each : StepsKeep vs m I) (ideal : vs.Ideal)
include each ideal

theorem visitNode_follows (settings : LoadSettings) {x : Trail} (lawful : Lawful m x.line)
    (knows : p.store.Knows vs x.above) (ready : ReadyWith vs m I p) :
    Follows (ReadyWith vs m I)
      (visitNode (store vs enforce).failing m.hierarchy settings x.path (p.store.parentOf vs x.above)
        (p.store.contextOf vs x.above) x.node.type x.node.attributes)
      (visitNode (store vs enforce) m.hierarchy settings x.path (p.store.parentOf vs x.above)
        (p.store.contextOf vs x.above) x.node.type x.node.attributes) p := by
  cases bears : x.node.bears with
  | false =>
    have empty : x.node.attributes.isEmpty = true := by simpa [Label.bears] using bears
    unfold visitNode
    rw [empty]
    exact (Follows.count _).bind fun _ _ _ => .pure _
  | true =>
    have bearing : x.node.attributes.isEmpty = false := by simpa [Label.bears] using bears
    obtain ⟨t, table⟩ := compiles.tableFor (lawful.entities x.node List.mem_cons_self)
    rw [visitNode_bearing _ _ _ _ _ _ _ bearing, visitNode_bearing _ _ _ _ _ _ _ bearing]
    obtain ⟨columns, right, outcomes⟩ := upsert_outcome enforce compiles ideal ready.ready table.mem table.kind bearing
      x.path
    rw [table.name] at outcomes
    refine (upsert_follows compiles m.hierarchy x.path x.node.type x.node.attributes ready).bind fun n q done => ?_
    rcases outcomes with ⟨k, db, report, fits, castable, upserted, eq⟩ | ⟨error, db, refused, eq⟩
    swap
    · cases eq.symm.trans done
    cases eq.symm.trans done
    have first := upserted.consistent compiles table.mem ideal table.kind ready.ready.consistent fits castable
    have id := upserted.idAt compiles ideal bears table ready.ready.consistent fits castable
    have line := upserted.knows compiles ideal bears table ready.ready.consistent fits castable knows
    have context : (p.store.contextOf vs x.above).insert x.node.type n = db.contextOf vs x.line := by
      rw [← upserted.grows.contextOf knows, Trail.line, contextOf, id]
    have inserted : ReadyWith vs m I ⟨db, columns, report⟩ :=
      ⟨⟨first, right⟩, each.upserted ready.ready.consistent table upserted ready.holds⟩
    obtain ⟨w, ready', surrounded, second⟩ := surround_outcome enforce compiles inserted.ready lawful
      (upserted.grows.knows knows) id
    refine (surround_follows compiles _ _ _ _ inserted).bind fun _ w' done => ?_
    rw [context, second] at done
    cases done
    have recorded := each.surrounded first lawful bears line surrounded inserted.holds
    exact (pair_follows compiles _ _ _ _ _ ⟨ready', recorded⟩).bind fun _ _ _ => .pure _

mutual

theorem visit_follows (settings : LoadSettings) (path : NodePath) (above : List Label) : (t : Tree) →
    (lawful : ∀ x ∈ t.trailsAt path above, Lawful m x.line) → (p : Progress (Database V)) → (ready : ReadyWith vs m I p) →
    (knows : p.store.Knows vs above) →
    Follows (ReadyWith vs m I) (visit (store vs enforce).failing m.hierarchy settings path (p.store.parentOf vs above)
      (p.store.contextOf vs above) t)
      (visit (store vs enforce) m.hierarchy settings path (p.store.parentOf vs above) (p.store.contextOf vs above) t) p
  | ⟨type, attributes, children⟩, lawful, p, ready, knows => by
    have own := lawful _ List.mem_cons_self
    rw [visit, visit]
    refine (visitNode_follows compiles each ideal settings own knows ready).bind fun got q done => ?_
    obtain ⟨q', ready', ⟨loaded, eq⟩ | ⟨error, refused, eq⟩⟩ :=
      visitNode_outcome enforce compiles ideal ready.ready settings own knows
    · cases eq.symm.trans done
      have known := loaded.knows compiles ideal ready.ready.consistent knows
      have holds := loaded.keeps each compiles ideal ready.ready.consistent own knows ready.holds
      exact visitChildren_follows settings path ⟨type, attributes⟩ above 0 children
        (fun x mem => lawful x (List.mem_cons_of_mem _ mem)) q ⟨ready', holds⟩ known
    · cases eq.symm.trans done

theorem visitChildren_follows (settings : LoadSettings) (path : NodePath) (parent : Label) (above : List Label)
    (index : Nat) : (ts : List Tree) →
    (lawful : ∀ x ∈ Tree.trailsBelow path (parent :: above) index ts, Lawful m x.line) →
    (p : Progress (Database V)) → (ready : ReadyWith vs m I p) → (knows : p.store.Knows vs (parent :: above)) →
    Follows (ReadyWith vs m I) (visitChildren (store vs enforce).failing m.hierarchy settings path
      (p.store.parentOf vs (parent :: above)) (p.store.contextOf vs (parent :: above)) index ts)
      (visitChildren (store vs enforce) m.hierarchy settings path (p.store.parentOf vs (parent :: above))
        (p.store.contextOf vs (parent :: above)) index ts) p
  | [], _, _, _, _ => .pure _
  | c :: rest, lawful, p, ready, knows => by
    have inside := fun x mem => lawful x (List.mem_append_left _ mem)
    rw [visitChildren, visitChildren]
    refine (visit_follows settings (path.child c.type index) (parent :: above) c inside p ready knows).bind
      fun _ q done => ?_
    have ends : Ends vs m enforce settings _ p _ :=
      visit_ends compiles ideal (path.child c.type index) (parent :: above) c inside p ready.ready knows
    rw [done] at ends
    have loaded : Loaded vs m settings _ p.store p.report q.store q.report := ends.2
    have holds := loaded.keeps each compiles ideal ready.ready.consistent ready.holds
    have others := visitChildren_follows settings path parent above (index + 1) rest
      (fun x mem => lawful x (List.mem_append_right _ mem)) q ⟨ends.1, holds⟩ (loaded.grows.knows knows)
    rw [loaded.grows.parentOf knows, loaded.grows.contextOf knows] at others
    exact others

end

theorem loadWith_follows (settings : LoadSettings) {t : Tree} (root : t.RootedIn m) (ready : ReadyWith vs m I p) :
    Follows (ReadyWith vs m I) (loadWith (store vs enforce).failing m.hierarchy settings t)
      (loadWith (store vs enforce) m.hierarchy settings t) p := by
  unfold loadWith
  cases checked : t.check m.hierarchy settings.maxDepth with
  | error found => exact .fail _
  | ok =>
    have lawful := Tree.trails_lawful compiles root checked
    have known : p.store.Knows vs [] := fun _ mem => nomatch mem
    refine (Follows.count fun _ => {}).bind fun _ q cleared => ?_
    cases cleared
    have cleared : ReadyWith vs m I { p with report := {} } :=
      ⟨⟨ready.ready.consistent, ready.ready.columns⟩, ready.holds⟩
    refine (visit_follows compiles each ideal settings ⟨t.type, []⟩ [] t lawful _ cleared known).bind fun _ q _ => ?_
    exact fun faults => ⟨faults, .inl rfl⟩

/-- A load that is cut short ends in a state as good as any. -/
theorem load_cut (enforce : Bool) (settings : LoadSettings) {t : Tree} (root : t.RootedIn m)
    (ready : ReadyWith vs m I p) (faults : Faults) : ∃ q left, ReadyWith vs m I q ∧
      (outcome (load (store vs enforce).failing settings t) (p.failing faults)).2 = q.failing left := by
  obtain ⟨g, same, read⟩ := ready.ready.consistent.hierarchy ideal enforce
  rcases Registry.load_failing (store vs enforce) p.store faults with ⟨error, failed⟩ | goesOn
  · have ended : outcome (load (store vs enforce).failing settings t) (p.failing faults) = _ :=
      outcome_load_error failed settings t
    rw [ended]
    exact ⟨p, faults.tail, ready, rfl⟩
  · rw [read] at goesOn
    have opened : outcome (load (store vs enforce).failing settings t) (p.failing faults) = _ :=
      outcome_load goesOn settings t
    rw [opened, loadWith_perm _ _ same]
    have follows : Follows (ReadyWith vs m I) _ (loadWith (store vs enforce) m.hierarchy settings t) p :=
      loadWith_follows compiles each ideal settings root ready
    obtain ⟨left, done | ⟨error, q, ready', cut⟩⟩ := follows faults.tail
    · obtain ⟨ready', ends⟩ := loadWith_ends compiles ideal enforce settings ready.ready root
      have holds := ends.keeps each compiles ideal ready.ready.consistent ready.holds
      exact ⟨_, left, ⟨ready', holds⟩, congrArg Prod.snd done⟩
    · exact ⟨q, left, ready', congrArg Prod.snd cut⟩

end Walk

end Loader

end TreeStore
