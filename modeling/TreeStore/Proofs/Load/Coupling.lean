import TreeStore.Proofs.Load.Walk

/-! Two loads side by side, of one tree on two stores. If every request and every question for columns keeps them
coupled, and comes out the same on both sides, so does the whole load. -/

namespace TreeStore

open Loader

namespace Loader

variable {σ τ α β : Type}

/-- Two parts of loads come out the same from progress that is coupled, and leave it coupled. -/
def Couples (R : Progress σ → Progress τ → Prop) (x : LoadM σ α) (y : LoadM τ α) : Prop := ∀ p q, R p q →
  (outcome x p).1 = (outcome y q).1 ∧ R (outcome x p).2 (outcome y q).2

variable {R : Progress σ → Progress τ → Prop}

namespace Couples

theorem pure (a : α) : Couples R (Pure.pure a) (Pure.pure a) := fun _ _ coupled => ⟨rfl, coupled⟩

theorem fail (error : LoadError) : Couples R (throw error : LoadM σ α) (throw error) :=
  fun _ _ coupled => ⟨rfl, coupled⟩

theorem lift (x : Except LoadError α) : Couples R (liftM x) (liftM x) := by
  cases x with
  | error error => exact .fail error
  | ok a => exact .pure a

theorem bind {x : LoadM σ α} {y : LoadM τ α} {f : α → LoadM σ β} {g : α → LoadM τ β} (first : Couples R x y)
    (next : ∀ a, Couples R (f a) (g a)) : Couples R (x >>= f) (y >>= g) := by
  intro p q coupled
  obtain ⟨same, after⟩ := first p q coupled
  rw [outcome_bind, outcome_bind]
  rcases ended : outcome x p with ⟨result, p'⟩
  rcases ended' : outcome y q with ⟨result', q'⟩
  rw [ended, ended'] at same after
  obtain rfl : result = result' := same
  cases result with
  | error error => exact ⟨rfl, after⟩
  | ok a => exact next a p' q' after

theorem foldlM {f : β → α → LoadM σ β} {g : β → α → LoadM τ β} {xs : List α}
    (each : ∀ b, ∀ x ∈ xs, Couples R (f b x) (g b x)) (b : β) : Couples R (xs.foldlM f b) (xs.foldlM g b) := by
  induction xs generalizing b with
  | nil => exact .pure b
  | cons x rest ih =>
    rw [List.foldlM_cons, List.foldlM_cons]
    exact (each b x List.mem_cons_self).bind (ih fun c y mem => each c y (List.mem_cons_of_mem _ mem))

end Couples

structure Coupling (A : Store σ) (B : Store τ) (R : Progress σ → Progress τ → Prop) : Prop where
  ask : ∀ path r, Couples R (ask A path r) (ask B path r)
  columnsOf : ∀ path table, Couples R (columnsOf A path table) (columnsOf B path table)
  count : ∀ f, Couples R (count f) (count f)
  report : ∀ p q, R p q → p.report = q.report

namespace Coupling

variable {A : Store σ} {B : Store τ} (coupling : Coupling A B R) (path : NodePath) (h : Hierarchy)
  (settings : LoadSettings)
include coupling

theorem findOrInsert (type : String) (values : List (String × Option Operand)) :
    Couples R (findOrInsert A path type values) (findOrInsert B path type values) := by
  unfold Loader.findOrInsert
  refine (coupling.ask path _).bind fun rows => ?_
  split
  · split
    · exact .fail _
    · exact (coupling.count _).bind fun _ => .pure _
  · exact (coupling.ask path _).bind fun _ => (coupling.count _).bind fun _ => .pure _

theorem upsert (type : String) (attributes : TextMap String) :
    Couples R (upsert A h path type attributes) (upsert B h path type attributes) := by
  rw [upsert_eq, upsert_eq]
  refine (coupling.columnsOf path type).bind fun columns => ?_
  exact (Couples.lift _).bind fun values => coupling.findOrInsert path type values

theorem insertUnlessPresent (table : String) (ids : List (String × Int)) (nulls : List String) :
    Couples R (insertUnlessPresent A path table ids nulls) (insertUnlessPresent B path table ids nulls) := by
  unfold Loader.insertUnlessPresent
  refine (coupling.ask path _).bind fun rows => ?_
  split
  · exact (coupling.ask path _).bind fun _ => .pure _
  · exact .pure _

theorem surround (type : String) (context : Context) :
    Couples R (surround A h path type context) (surround B h path type context) := by
  unfold Loader.surround recordRelationship
  split
  · refine (coupling.columnsOf path _).bind fun columns => ?_
    refine (coupling.insertUnlessPresent path _ _ _).bind fun new => ?_
    split
    · exact coupling.count _
    · exact coupling.count _
  · exact .pure _

theorem pair (parent : Option (String × Int)) (child : String × Int) :
    Couples R (pair A h settings path parent child) (pair B h settings path parent child) := by
  unfold Loader.pair
  cases parent with
  | none => exact .pure _
  | some parent =>
    cases settings.recordJunctions with
    | false => exact .pure _
    | true =>
      cases registered : h.relation? parent.1 child.1 with
      | none =>
        unfold recordJunction
        simp only [if_true, registered]
        exact .pure _
      | some relation =>
        simp only [if_true, recordJunction_eq A h path registered, recordJunction_eq B h path registered]
        refine (coupling.columnsOf path _).bind fun columns => (Couples.lift _).bind fun _ => ?_
        exact (coupling.insertUnlessPresent path _ _ _).bind fun new => coupling.count _

theorem visitNode (parent : Option (String × Int)) (context : Context) (type : String)
    (attributes : TextMap String) : Couples R (visitNode A h settings path parent context type attributes)
      (visitNode B h settings path parent context type attributes) := by
  cases empty : attributes.isEmpty with
  | true =>
    unfold Loader.visitNode
    rw [empty]
    exact (coupling.count _).bind fun _ => .pure _
  | false =>
    rw [visitNode_bearing A h settings path parent context type empty,
      visitNode_bearing B h settings path parent context type empty]
    refine (coupling.upsert path h type attributes).bind fun id => ?_
    refine (coupling.surround path h type _).bind fun _ => ?_
    exact (coupling.pair path h settings parent _).bind fun _ => .pure _

omit path in
theorem walkNode (handed : List Handed) (x : Trail) :
    Couples R (walkNode A h settings handed x) (walkNode B h settings handed x) := by
  unfold Loader.walkNode
  exact (coupling.visitNode x.path h settings _ _ x.node.type x.node.attributes).bind fun _ => .pure _

omit path in
theorem loadWith (t : Tree) : Couples R (loadWith A h settings t) (loadWith B h settings t) := by
  unfold Loader.loadWith
  cases t.check h settings.maxDepth with
  | error found => exact .fail _
  | ok =>
    have report : Couples R (do return (← get).report : LoadM σ LoadReport) (do return (← get).report) :=
      fun p q coupled => ⟨congrArg Except.ok (coupling.report p q coupled), coupled⟩
    simp only [visit_walk, bind_assoc, pure_bind]
    refine (coupling.count fun _ => {}).bind fun _ => ?_
    exact (Couples.foldlM (fun handed x _ => coupling.walkNode h settings handed x) []).bind fun _ => report

omit path h in
/-- A load stays coupled if reading the hierarchy does. -/
theorem load (read : ∀ p q, R p q → (Registry.load A p.store).1 = (Registry.load B q.store).1 ∧
      R { p with store := (Registry.load A p.store).2 } { q with store := (Registry.load B q.store).2 }) (t : Tree) :
    Couples R (load A settings t) (load B settings t) := by
  intro p q coupled
  obtain ⟨same, after⟩ := read p q coupled
  rcases first : Registry.load A p.store with ⟨error | h, s⟩
  · rw [first] at same after
    have second : Registry.load B q.store = (.error error, (Registry.load B q.store).2) := Prod.ext same.symm rfl
    rw [outcome_load_error first, outcome_load_error second]
    exact ⟨rfl, after⟩
  · rw [first] at same after
    have second : Registry.load B q.store = (.ok h, (Registry.load B q.store).2) := Prod.ext same.symm rfl
    rw [outcome_load first, outcome_load second]
    exact coupling.loadWith h settings t _ _ after

end Coupling

end Loader

/-! ### Stores that answer the same -/

variable {σ τ : Type}

/-- One store answers as another one, in states that match, and they match afterwards. -/
def Store.Mirrors (A : Store σ) (B : Store τ) (R : σ → τ → Prop) : Prop := ∀ r s t, R s t →
  (A.answer r s).1 = (B.answer r t).1 ∧ R (A.answer r s).2 (B.answer r t).2

structure Loader.Matched (R : σ → τ → Prop) (p : Progress σ) (q : Progress τ) : Prop where
  stores : R p.store q.store
  columns : p.columns = q.columns
  report : p.report = q.report

namespace Store.Mirrors

variable {A : Store σ} {B : Store τ} {R : σ → τ → Prop} (mirrors : A.Mirrors B R)
include mirrors

theorem ask (path : NodePath) (r : Request) : Couples (Matched R) (ask A path r) (ask B path r) := by
  rintro p q ⟨stores, columns, report⟩
  obtain ⟨same, after⟩ := mirrors r p.store q.store stores
  rcases first : A.answer r p.store with ⟨error | a, s⟩
  · rw [first] at same after
    have second : B.answer r q.store = (.error error, (B.answer r q.store).2) := Prod.ext same.symm rfl
    rw [outcome_ask_error first, outcome_ask_error second]
    exact ⟨rfl, after, columns, report⟩
  · rw [first] at same after
    have second : B.answer r q.store = (.ok a, (B.answer r q.store).2) := Prod.ext same.symm rfl
    rw [outcome_ask_ok first, outcome_ask_ok second]
    exact ⟨rfl, after, columns, report⟩

theorem columnsOf (path : NodePath) (table : String) :
    Couples (Matched R) (columnsOf A path table) (columnsOf B path table) := by
  have remembered : ∀ columns, Couples (Matched R) (remember path table columns) (remember path table columns) := by
    intro columns
    unfold remember
    split
    · exact .fail _
    · rintro p q ⟨stores, same, report⟩
      exact ⟨rfl, stores, congrArg (TextMap.insert · (Text.lower table) columns) same, report⟩
  rintro p q matched
  cases known : p.columns.get? (Text.lower table) with
  | some columns =>
    have known' : q.columns.get? (Text.lower table) = some columns := by rw [← matched.columns, known]
    rw [columnsOf_known A path known, columnsOf_known B path known']
    exact ⟨rfl, matched⟩
  | none =>
    have known' : q.columns.get? (Text.lower table) = none := by rw [← matched.columns, known]
    rw [columnsOf_unknown A path known, columnsOf_unknown B path known']
    exact (mirrors.ask path _).bind remembered p q matched

theorem coupling : Coupling A B (Matched R) where
  ask := mirrors.ask
  columnsOf := mirrors.columnsOf
  count := fun f _ _ ⟨stores, columns, report⟩ => ⟨rfl, stores, columns, congrArg f report⟩
  report := fun _ _ matched => matched.report

theorem registry {s : σ} {t : τ} (stores : R s t) : (Registry.load A s).1 = (Registry.load B t).1 ∧
    R (Registry.load A s).2 (Registry.load B t).2 := by
  obtain ⟨same, after⟩ := mirrors (.select Registry.selectAll) s t stores
  unfold Registry.load
  rcases first : A.answer (.select Registry.selectAll) s with ⟨error | rows, s'⟩
  · rw [first] at same after
    have second : B.answer (.select Registry.selectAll) t = (.error error, _) := Prod.ext same.symm rfl
    rw [second]
    exact ⟨rfl, after⟩
  · rw [first] at same after
    have second : B.answer (.select Registry.selectAll) t = (.ok rows, _) := Prod.ext same.symm rfl
    rw [second]
    exact ⟨rfl, after⟩

/-- A load on a store that answers as another one ends as on that one. -/
theorem run (settings : LoadSettings) (tree : Tree) (columns : ColumnCache) {s : σ} {t : τ} (stores : R s t) :
    (run (load A settings tree) columns s).1 = (run (load B settings tree) columns t).1 ∧
      (run (load A settings tree) columns s).2.1 = (run (load B settings tree) columns t).2.1 ∧
      R (run (load A settings tree) columns s).2.2 (run (load B settings tree) columns t).2.2 := by
  have read : ∀ p q, Matched R p q → (Registry.load A p.store).1 = (Registry.load B q.store).1 ∧
      Matched R { p with store := (Registry.load A p.store).2 } { q with store := (Registry.load B q.store).2 } :=
    fun p q matched => ⟨(mirrors.registry matched.stores).1, (mirrors.registry matched.stores).2, matched.columns,
      matched.report⟩
  obtain ⟨same, after⟩ := mirrors.coupling.load settings read tree { store := s, columns } { store := t, columns }
    ⟨stores, rfl, rfl⟩
  exact ⟨same, after.columns, after.stores⟩

end Store.Mirrors

end TreeStore
