import Mathlib.Data.List.Forall2
import TreeStore.Proofs.Load.ColumnCache

/-! Two loads in lockstep, on stores that need not be the same. All that is asked and told is overheard. As long as
both loads are told the same they come out the same, and each asks what is related to what the other one asks. -/

namespace TreeStore

open Loader

/-! ### Overhearing -/

inductive Reply where
  | failed (error : StoreError)
  | done
  | rows (rows : List Row)
  | id (n : Int)
  | columns (columns : List CatalogColumn)
deriving DecidableEq, Repr

def Request.reply : (r : Request) → Except StoreError r.Answer → Reply
  | _, .error error => .failed error
  | .create _, .ok _ => .done
  | .select _, .ok rows => .rows rows
  | .insert _, .ok _ => .done
  | .insertReturning _, .ok n => .id n
  | .columnsOf _, .ok columns => .columns columns

theorem Request.reply_inj {r : Request} {a b : Except StoreError r.Answer} (same : r.reply a = r.reply b) : a = b := by
  cases r <;> cases a <;> cases b <;> cases same <;> rfl

structure Exchange where
  request : Request
  reply : Reply
deriving DecidableEq

/-- A store with all that has been asked and told. -/
def Store.overheard {σ : Type} (store : Store σ) : Store (σ × List Exchange) where
  answer r s :=
    let (result, s') := store.answer r s.1
    (result, s', s.2 ++ [⟨r, r.reply result⟩])

theorem Store.overheard_mirrors {σ : Type} (store : Store σ) : store.overheard.Mirrors store fun s t => s.1 = t := by
  rintro r ⟨s, log⟩ _ rfl
  exact ⟨rfl, rfl⟩

/-- Two sides are told the same, as long as both are told anything. -/
def SameReplies (d d' : List Exchange) : Prop :=
  d.map (·.reply) <+: d'.map (·.reply) ∨ d'.map (·.reply) <+: d.map (·.reply)

namespace SameReplies

variable {a a' b b' : List Exchange}

theorem left (same : SameReplies (a ++ b) (a' ++ b')) : SameReplies a a' := by
  rw [SameReplies, List.map_append, List.map_append] at same
  rcases same with same | same
  · exact List.prefix_or_prefix_of_prefix ((List.prefix_append _ _).trans same) (List.prefix_append _ _)
  · exact List.prefix_or_prefix_of_prefix (List.prefix_append _ _) ((List.prefix_append _ _).trans same)

theorem right (same : SameReplies (a ++ b) (a' ++ b')) (level : a.length = a'.length) : SameReplies b b' := by
  have rest : ∀ {u u' v v' : List Reply}, u ++ v <+: u' ++ v' → u.length = u'.length → v <+: v' := by
    rintro u u' v v' ⟨more, eq⟩ level
    rw [List.append_assoc] at eq
    exact ⟨more, (List.append_inj eq level).2⟩
  rw [SameReplies, List.map_append, List.map_append] at same
  rcases same with same | same
  · exact .inl (rest same (by simpa using level))
  · exact .inr (rest same (by simpa using level.symm))

theorem singletons {c c' : Exchange} (same : SameReplies [c] [c']) : c.reply = c'.reply := by
  rcases same with ⟨more, eq⟩ | ⟨more, eq⟩
  · exact (List.cons.inj eq).1
  · exact (List.cons.inj eq).1.symm

end SameReplies

namespace Loader

variable {σ τ α β γ δ : Type}

/-! ### What a part of a load adds -/

def Keeps (columns columns' : ColumnCache) : Prop := ∀ key found, columns.get? key = some found →
  columns'.get? key = some found

theorem Keeps.refl (columns : ColumnCache) : Keeps columns columns := fun _ _ => id

theorem Keeps.trans {a b c : ColumnCache} (first : Keeps a b) (second : Keeps b c) : Keeps a c :=
  fun key found known => second key found (first key found known)

/-- A load has gone on from earlier progress. It remembers of columns what it did then and what it has been told. -/
structure Later (p₀ p : Progress (σ × List Exchange)) : Prop where
  heard : p₀.store.2 <+: p.store.2
  kept : Keeps p₀.columns p.columns
  told : ∀ key found, p.columns.get? key = some found → p₀.columns.get? key = some found ∨
    ∃ table, Text.lower table = key ∧ ⟨.columnsOf table, .columns found⟩ ∈ p.store.2

namespace Later

theorem refl (p : Progress (σ × List Exchange)) : Later p p := ⟨List.prefix_refl _, .refl _, fun _ _ => .inl⟩

theorem trans {p₁ p₂ p₃ : Progress (σ × List Exchange)} (first : Later p₁ p₂) (second : Later p₂ p₃) : Later p₁ p₃ where
  heard := first.heard.trans second.heard
  kept := first.kept.trans second.kept
  told := fun key found known => by
    rcases second.told key found known with known | told
    · rcases first.told key found known with known | ⟨table, same, mem⟩
      · exact .inl known
      · exact .inr ⟨table, same, second.heard.subset mem⟩
    · exact .inr told

theorem ask {p : Progress (σ × List Exchange)} (s : σ) (c : Exchange) :
    Later p { p with store := (s, p.store.2 ++ [c]) } :=
  ⟨List.prefix_append _ _, .refl _, fun _ _ => .inl⟩

theorem remember {p : Progress (σ × List Exchange)} {table : String} {columns : List CatalogColumn}
    (unknown : p.columns.get? (Text.lower table) = none)
    (told : ⟨.columnsOf table, .columns columns⟩ ∈ p.store.2) :
    Later p { p with columns := p.columns.insert (Text.lower table) columns } where
  heard := List.prefix_refl _
  kept := fun key found known => by
    rw [TextMap.get?_insert, if_neg ?_]
    · exact known
    · rintro rfl
      rw [unknown] at known
      cases known
  told := fun key found known => by
    rw [TextMap.get?_insert] at known
    split at known
    · next same =>
      cases known
      exact .inr ⟨table, same.symm, told⟩
    · exact .inl known

end Later

def GoesOn (x : LoadM (σ × List Exchange) α) : Prop := ∀ p, Later p (outcome x p).2

section Single

variable (store : Store σ) (path : NodePath)

theorem outcome_overheard (r : Request) (p : Progress (σ × List Exchange)) :
    outcome (ask store.overheard path r) p =
      ((store.answer r p.store.1).1.mapError (.store path ·), { p with store := ((store.answer r p.store.1).2,
        p.store.2 ++ [⟨r, r.reply (store.answer r p.store.1).1⟩]) }) := by
  rcases answered : store.answer r p.store.1 with ⟨error | a, s⟩
  · have same : store.overheard.answer r p.store = (.error error, s, p.store.2 ++ [⟨r, r.reply (.error error)⟩]) := by
      simp only [Store.overheard, answered]
    exact outcome_ask_error same
  · have same : store.overheard.answer r p.store = (.ok a, s, p.store.2 ++ [⟨r, r.reply (.ok a)⟩]) := by
      simp only [Store.overheard, answered]
    exact outcome_ask_ok same

def columnsAfter (columns : ColumnCache) (table : String) : Except StoreError (List CatalogColumn) → ColumnCache
  | .error _ => columns
  | .ok found => if found.isEmpty then columns else columns.insert (Text.lower table) found

theorem outcome_columnsOf_overheard {p : Progress (σ × List Exchange)} {table : String}
    (unknown : p.columns.get? (Text.lower table) = none) : outcome (columnsOf store.overheard path table) p =
      (columnsFound path table (store.answer (.columnsOf table) p.store.1).1,
        { p with store := ((store.answer (.columnsOf table) p.store.1).2, p.store.2 ++
                    [⟨.columnsOf table, Request.reply _ (store.answer (.columnsOf table) p.store.1).1⟩]),
                 columns := columnsAfter p.columns table (store.answer (.columnsOf table) p.store.1).1 }) := by
  rw [columnsOf_unknown _ path unknown, outcome_bind, outcome_overheard]
  cases (store.answer (.columnsOf table) p.store.1).1 with
  | error error => rfl
  | ok columns =>
    dsimp only [Except.mapError, columnsFound, columnsAfter, remember]
    split <;> rfl

namespace GoesOn

theorem pure (a : α) : GoesOn (Pure.pure a : LoadM (σ × List Exchange) α) := fun p => .refl p

theorem fail (error : LoadError) : GoesOn (throw error : LoadM (σ × List Exchange) α) := fun p => .refl p

theorem lift (x : Except LoadError α) : GoesOn (liftM x : LoadM (σ × List Exchange) α) := by
  cases x with
  | error error => exact .fail error
  | ok a => exact .pure a

theorem count (f : LoadReport → LoadReport) : GoesOn (Loader.count f : LoadM (σ × List Exchange) Unit) :=
  fun _ => ⟨List.prefix_refl _, .refl _, fun _ _ => .inl⟩

theorem after {f : α → LoadM (σ × List Exchange) β} (next : ∀ a, GoesOn (f a)) (x : LoadM (σ × List Exchange) α)
    (p : Progress (σ × List Exchange)) : Later (outcome x p).2 (outcome (x >>= f) p).2 := by
  rw [outcome_bind]
  rcases outcome x p with ⟨_ | a, q⟩
  · exact .refl q
  · exact next a q

theorem bind {x : LoadM (σ × List Exchange) α} {f : α → LoadM (σ × List Exchange) β} (first : GoesOn x)
    (next : ∀ a, GoesOn (f a)) : GoesOn (x >>= f) := fun p => (first p).trans (after next x p)

theorem foldlM {f : β → α → LoadM (σ × List Exchange) β} (each : ∀ b a, GoesOn (f b a)) (xs : List α) (b : β) :
    GoesOn (xs.foldlM f b) := by
  induction xs generalizing b with
  | nil => exact .pure b
  | cons x rest ih =>
    rw [List.foldlM_cons]
    exact (each b x).bind ih

theorem report : GoesOn (do return (← get).report : LoadM (σ × List Exchange) LoadReport) := fun p => .refl p

theorem ask (path : NodePath) (r : Request) : GoesOn (Loader.ask store.overheard path r) := by
  intro p
  rw [outcome_overheard]
  exact .ask _ _

theorem columnsOf (path : NodePath) (table : String) : GoesOn (Loader.columnsOf store.overheard path table) := by
  intro p
  cases known : p.columns.get? (Text.lower table) with
  | some columns =>
    rw [columnsOf_known _ path known]
    exact .refl p
  | none =>
    rw [outcome_columnsOf_overheard store path known]
    have asked := Later.ask (p := p) (store.answer (.columnsOf table) p.store.1).2
      ⟨.columnsOf table, Request.reply _ (store.answer (.columnsOf table) p.store.1).1⟩
    cases answered : (store.answer (.columnsOf table) p.store.1).1 with
    | error error =>
      rw [answered] at asked
      exact asked
    | ok columns =>
      rw [answered] at asked
      unfold columnsAfter
      dsimp only
      split
      · exact asked
      · exact asked.trans (.remember known (List.mem_append_right _ (List.mem_singleton.2 rfl)))

end GoesOn

theorem coupling_later (p₀ : Progress (σ × List Exchange)) :
    Coupling store.overheard store.overheard fun p q => p = q ∧ Later p₀ p where
  ask := by
    rintro path r p _ ⟨rfl, later⟩
    exact ⟨rfl, rfl, later.trans (GoesOn.ask store path r p)⟩
  columnsOf := by
    rintro path table p _ ⟨rfl, later⟩
    exact ⟨rfl, rfl, later.trans (GoesOn.columnsOf store path table p)⟩
  count := by
    rintro f p _ ⟨rfl, later⟩
    exact ⟨rfl, rfl, later.trans (GoesOn.count f p)⟩
  report := by
    rintro p _ ⟨rfl, _⟩
    rfl

theorem GoesOn.of_couples {x : LoadM (σ × List Exchange) α}
    (couples : ∀ p₀, Couples (fun p q => p = q ∧ Later p₀ p) x x) : GoesOn x := fun p => (couples p p p ⟨rfl, .refl p⟩).2.2

end Single

/-! ### In step -/

structure InStep (p : Progress (σ × List Exchange)) (q : Progress (τ × List Exchange)) : Prop where
  columns : p.columns = q.columns
  report : p.report = q.report

inductive Agrees (related : α → β → Prop) : Except LoadError α → Except LoadError β → Prop
  | error (error : LoadError) : Agrees related (.error error) (.error error)
  | ok {a : α} {b : β} (same : related a b) : Agrees related (.ok a) (.ok b)

theorem Agrees.refl (x : Except LoadError α) : Agrees Eq x x := by
  cases x with
  | error error => exact .error error
  | ok a => exact .ok rfl

theorem Agrees.then {related : α → β → Prop} {related' : γ → δ → Prop} {x : Except LoadError α}
    {y : Except LoadError β} {f : α → Except LoadError γ} {g : β → Except LoadError δ} (agrees : Agrees related x y)
    (next : ∀ a b, related a b → Agrees related' (f a) (g b)) : Agrees related' (x >>= f) (y >>= g) := by
  cases agrees with
  | error error => exact .error error
  | ok same => exact next _ _ same

section Lockstep

variable (catalog : ColumnCache) (C : Exchange → Exchange → Prop)

/-- Two parts of loads come out related and stay in step, and the exchanges of one correspond to those of the other,
as long as both are told the same. What will be known of columns in the end may be taken as known. -/
structure Lockstep (related : α → β → Prop) (x : LoadM (σ × List Exchange) α) (y : LoadM (τ × List Exchange) β) :
    Prop where
  first : GoesOn x
  second : GoesOn y
  both : ∀ {p q d d'}, InStep p q → (outcome x p).2.store.2 = p.store.2 ++ d →
    (outcome y q).2.store.2 = q.store.2 ++ d' → SameReplies d d' → Keeps (outcome x p).2.columns catalog →
    Agrees related (outcome x p).1 (outcome y q).1 ∧ InStep (outcome x p).2 (outcome y q).2 ∧ List.Forall₂ C d d'

variable {catalog C} {related : α → β → Prop}

namespace Lockstep

theorem quiet {x : LoadM (σ × List Exchange) α} {y : LoadM (τ × List Exchange) β} (first : GoesOn x) (second : GoesOn y)
    (silent : ∀ p, (outcome x p).2.store = p.store) (silent' : ∀ q, (outcome y q).2.store = q.store)
    (same : ∀ p q, InStep p q → Agrees related (outcome x p).1 (outcome y q).1 ∧
      InStep (outcome x p).2 (outcome y q).2) : Lockstep catalog C related x y where
  first := first
  second := second
  both := fun {p q} _ _ step heard heard' _ _ => by
    rw [silent p] at heard
    rw [silent' q] at heard'
    obtain rfl := List.self_eq_append_right.1 heard
    obtain rfl := List.self_eq_append_right.1 heard'
    obtain ⟨agrees, step'⟩ := same p q step
    exact ⟨agrees, step', .nil⟩

theorem pure {a : α} {b : β} (same : related a b) :
    Lockstep (σ := σ) (τ := τ) catalog C related (Pure.pure a) (Pure.pure b) :=
  .quiet (.pure a) (.pure b) (fun _ => rfl) (fun _ => rfl) fun _ _ step => ⟨.ok same, step⟩

theorem fail (error : LoadError) :
    Lockstep (σ := σ) (τ := τ) catalog C related (throw error) (throw error) :=
  .quiet (.fail error) (.fail error) (fun _ => rfl) (fun _ => rfl) fun _ _ step => ⟨.error error, step⟩

theorem lift {x : Except LoadError α} {y : Except LoadError β} (agrees : Agrees related x y) :
    Lockstep (σ := σ) (τ := τ) catalog C related (liftM x) (liftM y) := by
  cases agrees with
  | error error => exact .fail error
  | ok same => exact .pure same

theorem count (f : LoadReport → LoadReport) :
    Lockstep (σ := σ) (τ := τ) catalog C (fun _ _ => True) (Loader.count f) (Loader.count f) :=
  .quiet (.count f) (.count f) (fun _ => rfl) (fun _ => rfl) fun _ _ step =>
    ⟨.ok trivial, step.columns, congrArg f step.report⟩

theorem report : Lockstep (σ := σ) (τ := τ) catalog C Eq (do return (← get).report) (do return (← get).report) :=
  .quiet .report .report (fun _ => rfl) (fun _ => rfl) fun _ _ step => ⟨.ok step.report, step⟩

/-- Parts in a row. What comes second has to go on whatever came first, for the two may be told different things. -/
theorem bind {x : LoadM (σ × List Exchange) α} {y : LoadM (τ × List Exchange) β}
    {f : α → LoadM (σ × List Exchange) γ} {g : β → LoadM (τ × List Exchange) δ} {related' : γ → δ → Prop}
    (start : Lockstep catalog C related x y) (goes : ∀ a, GoesOn (f a)) (goes' : ∀ b, GoesOn (g b))
    (next : ∀ a b, related a b → Lockstep catalog C related' (f a) (g b)) :
    Lockstep catalog C related' (x >>= f) (y >>= g) where
  first := start.first.bind goes
  second := start.second.bind goes'
  both := by
    intro p q d d' step heard heard' same known
    -- What each side hears is cut where its first part ends. The first parts ask equally much, so the second
    -- parts are told the same, too.
    have later := GoesOn.after goes x p
    have later' := GoesOn.after goes' y q
    obtain ⟨d₁, own⟩ := (start.first p).heard
    obtain ⟨d₁', own'⟩ := (start.second q).heard
    obtain ⟨d₂, others⟩ := later.heard
    obtain ⟨d₂', others'⟩ := later'.heard
    obtain rfl : d = d₁ ++ d₂ := by
      rw [← others, ← own, List.append_assoc] at heard
      exact (List.append_cancel_left heard).symm
    obtain rfl : d' = d₁' ++ d₂' := by
      rw [← others', ← own', List.append_assoc] at heard'
      exact (List.append_cancel_left heard').symm
    obtain ⟨agrees, step', calls⟩ := start.both step own.symm own'.symm same.left (later.kept.trans known)
    have same' := same.right calls.length_eq
    rw [outcome_bind] at others known ⊢
    rw [outcome_bind] at others' ⊢
    rcases ended : outcome x p with ⟨r, p₁⟩
    rcases ended' : outcome y q with ⟨r', q₁⟩
    rw [ended] at others known
    rw [ended'] at others'
    rw [ended, ended'] at agrees step'
    dsimp only at agrees
    cases agrees with
    | error error =>
      obtain rfl := List.append_right_eq_self.1 others
      obtain rfl := List.append_right_eq_self.1 others'
      rw [List.append_nil, List.append_nil]
      exact ⟨.error error, step', calls⟩
    | ok related =>
      obtain ⟨agrees', step'', calls'⟩ := (next _ _ related).both step' others.symm others'.symm same' known
      exact ⟨agrees', step'', List.rel_append calls calls'⟩

variable {A : Store σ} {B : Store τ}

theorem ask {r r' : Request} {related : r.Answer → r'.Answer → Prop} (path : NodePath)
    (told : ∀ a b, r.reply a = r'.reply b →
      Agrees related (a.mapError (LoadError.store path)) (b.mapError (LoadError.store path)))
    (calls : ∀ reply, C ⟨r, reply⟩ ⟨r', reply⟩) :
    Lockstep catalog C related (Loader.ask A.overheard path r) (Loader.ask B.overheard path r') where
  first := .ask A path r
  second := .ask B path r'
  both := fun step heard heard' same _ => by
    rw [outcome_overheard] at heard heard' ⊢
    rw [outcome_overheard]
    obtain rfl := List.append_cancel_left heard
    obtain rfl := List.append_cancel_left heard'
    have replies : r.reply _ = r'.reply _ := same.singletons
    refine ⟨told _ _ replies, ⟨step.columns, step.report⟩, .cons ?_ .nil⟩
    rw [replies]
    exact calls _

variable (path : NodePath)

theorem ask_same {r : Request} (calls : ∀ reply, C ⟨r, reply⟩ ⟨r, reply⟩) :
    Lockstep catalog C Eq (Loader.ask A.overheard path r) (Loader.ask B.overheard path r) := by
  refine .ask path (fun a b replies => ?_) calls
  obtain rfl := Request.reply_inj replies
  cases a with
  | error error => exact .error _
  | ok a => exact .ok rfl

theorem select {q q' : Select} (calls : ∀ reply, C ⟨.select q, reply⟩ ⟨.select q', reply⟩) :
    Lockstep catalog C (Eq : List Row → List Row → Prop) (Loader.ask A.overheard path (.select q))
      (Loader.ask B.overheard path (.select q')) := by
  refine .ask path (fun a b replies => ?_) calls
  cases a <;> cases b <;> cases replies
  · exact .error _
  · exact .ok rfl

theorem insertReturning {i i' : Insert}
    (calls : ∀ reply, C ⟨.insertReturning i, reply⟩ ⟨.insertReturning i', reply⟩) :
    Lockstep catalog C (Eq : Int → Int → Prop) (Loader.ask A.overheard path (.insertReturning i))
      (Loader.ask B.overheard path (.insertReturning i')) := by
  refine .ask path (fun a b replies => ?_) calls
  cases a <;> cases b <;> cases replies
  · exact .error _
  · exact .ok rfl

/-- The columns of a table are the ones that are known in the end. -/
theorem columnsOf (table : String) (calls : ∀ reply, C ⟨.columnsOf table, reply⟩ ⟨.columnsOf table, reply⟩) :
    Lockstep catalog C (fun columns columns' => columns = columns' ∧
        catalog.get? (Text.lower table) = some columns)
      (Loader.columnsOf A.overheard path table) (Loader.columnsOf B.overheard path table) where
  first := .columnsOf A path table
  second := .columnsOf B path table
  both := by
    intro p q d d' step heard heard' same known
    -- Both sides remember the same columns, so both ask or neither does.
    cases remembered : p.columns.get? (Text.lower table) with
    | some columns =>
      have remembered' : q.columns.get? (Text.lower table) = some columns := by rw [← step.columns, remembered]
      rw [columnsOf_known _ path remembered] at heard known ⊢
      rw [columnsOf_known _ path remembered'] at heard' ⊢
      obtain rfl := List.self_eq_append_right.1 heard
      obtain rfl := List.self_eq_append_right.1 heard'
      exact ⟨.ok ⟨rfl, known _ _ remembered⟩, step, .nil⟩
    | none =>
      have remembered' : q.columns.get? (Text.lower table) = none := by rw [← step.columns, remembered]
      rw [outcome_columnsOf_overheard A path remembered] at heard known ⊢
      rw [outcome_columnsOf_overheard B path remembered'] at heard' ⊢
      obtain rfl := List.append_cancel_left heard
      obtain rfl := List.append_cancel_left heard'
      have replies : Request.reply (.columnsOf table) _ = Request.reply (.columnsOf table) _ := same.singletons
      have answers := Request.reply_inj replies
      rw [← answers, ← step.columns]
      refine ⟨?_, ⟨rfl, step.report⟩, .cons (calls _) .nil⟩
      dsimp only at known ⊢
      cases answered : (A.answer (.columnsOf table) p.store.1).1 with
      | error error => exact .error _
      | ok columns =>
        rw [answered] at known
        unfold columnsFound
        unfold columnsAfter at known
        dsimp only at known ⊢
        split
        · exact .error _
        · next some =>
          rw [if_neg some] at known
          exact .ok ⟨rfl, known _ _ (by rw [TextMap.get?_insert, if_pos rfl])⟩

theorem foldlM {R : α → β → Prop} {f : γ → α → LoadM (σ × List Exchange) γ} {g : γ → β → LoadM (τ × List Exchange) γ}
    (goes : ∀ c a, GoesOn (f c a)) (goes' : ∀ c b, GoesOn (g c b))
    (each : ∀ c a b, R a b → Lockstep catalog C Eq (f c a) (g c b)) {xs : List α} {ys : List β}
    (alike : List.Forall₂ R xs ys) (c : γ) : Lockstep catalog C Eq (xs.foldlM f c) (ys.foldlM g c) := by
  induction alike generalizing c with
  | nil => exact .pure rfl
  | cons first rest ih =>
    rw [List.foldlM_cons, List.foldlM_cons]
    refine (each c _ _ first).bind (fun c => .foldlM goes _ c) (fun c => .foldlM goes' _ c) ?_
    rintro c _ rfl
    exact ih c

end Lockstep

end Lockstep

end Loader

end TreeStore
