import TreeStore.Proofs.Load.Node

/-! The errors of a load, whatever the store answers: once a tree has passed the check, an error is of a node of
the tree, which could not be mapped or which the store refused. -/

namespace TreeStore

inductive LoadError.At (path : NodePath) : LoadError → Prop
  | misfit (why : Misfit) : At path (.misfit path why)
  | store (error : StoreError) : At path (.store path error)

namespace Loader

variable {σ α β : Type}

/-! ### Parts in a row -/

section Parts

variable (store : Store σ) (h : Hierarchy) (path : NodePath)

/-- The values by which a node is found or inserted, given the columns of its table. -/
def operandsFor (type : String) (attributes : TextMap String) (columns : List CatalogColumn) :
    Except LoadError (List (String × Option Operand)) :=
  if !columns.any (Text.sameIgnoringCase ·.name Schema.idColumn) then .error (.misfit path (.noId type))
  else match attributes.keys.find? fun k => !(attributeColumns h type columns).any (Text.sameIgnoringCase ·.name k) with
    | some key => .error (.misfit path (.notColumn key type))
    | none => columnValues path attributes (attributeColumns h type columns)

theorem upsert_eq (type : String) (attributes : TextMap String) : upsert store h path type attributes = (do
    let columns ← columnsOf store path type
    let values ← operandsFor h path type attributes columns
    findOrInsert store path type values) := by
  unfold upsert operandsFor
  congr 1
  funext columns
  dsimp only
  cases columns.any (Text.sameIgnoringCase ·.name Schema.idColumn) with
  | false => rfl
  | true => cases attributes.keys.find? _ <;> rfl

def junctionFit (table : String) (ids : List (String × Int)) (columns : List CatalogColumn) : Except LoadError Unit :=
  match ids.find? fun v => !columns.any (Text.sameIgnoringCase ·.name v.1) with
  | some v => .error (.misfit path (.noJunctionColumn table v.1))
  | none => .ok ()

def pairIds (parent child : String × Int) : List (String × Int) :=
  [(Schema.contextColumn parent.1, parent.2), (Schema.junctionTarget parent.1 child.1, child.2)]

theorem recordJunction_eq {parent child : String × Int} {relation : String}
    (registered : h.relation? parent.1 child.1 = some relation) :
    recordJunction store h path parent child = (do
      let columns ← columnsOf store path (Schema.junctionTable parent.1 relation)
      junctionFit path (Schema.junctionTable parent.1 relation) (pairIds parent child) columns
      let new ← insertUnlessPresent store path (Schema.junctionTable parent.1 relation) (pairIds parent child) []
      count (noteJunction new)) := by
  unfold recordJunction junctionFit
  rw [registered]
  dsimp only
  congr 1
  funext columns
  have counted : (fun new : Bool => if new = true then
      count fun r => { r with junctionsInserted := r.junctionsInserted + 1 }
    else count fun r => { r with junctionsSkipped := r.junctionsSkipped + 1 } : Bool → LoadM σ Unit) =
      fun new => count (noteJunction new) := by
    funext new
    cases new <;> rfl
  rw [counted]
  cases found : (pairIds parent child).find? fun v => !columns.any (Text.sameIgnoringCase ·.name v.1) with
  | none =>
    rw [pairIds] at found
    rw [found]
    rfl
  | some v =>
    rw [pairIds] at found
    rw [found]
    rfl

end Parts

/-! ### Errors -/

variable {P Q : LoadError → Prop}

def Throws (P : LoadError → Prop) (x : LoadM σ α) : Prop := ∀ p e, (outcome x p).1 = .error e → P e

namespace Throws

theorem mono {x : LoadM σ α} (throws : Throws P x) (weaker : ∀ e, P e → Q e) : Throws Q x :=
  fun p e failed => weaker e (throws p e failed)

theorem pure (a : α) : Throws P (Pure.pure a : LoadM σ α) := fun _ _ failed => nomatch failed

theorem fail {e : LoadError} (kind : P e) : Throws P (throw e : LoadM σ α) := fun _ _ failed => by
  cases failed
  exact kind

theorem lift {x : Except LoadError α} (kind : ∀ e, x = .error e → P e) : Throws P (liftM x : LoadM σ α) := by
  intro p e failed
  cases x with
  | error found => exact kind e (congrArg _ (Except.error.inj failed))
  | ok a => cases failed

theorem read : Throws P (get : LoadM σ (Progress σ)) := fun _ _ failed => nomatch failed

theorem update (f : Progress σ → Progress σ) : Throws P (modify f : LoadM σ PUnit) := fun _ _ failed => nomatch failed

theorem bind {x : LoadM σ α} {f : α → LoadM σ β} (first : Throws P x) (next : ∀ a, Throws P (f a)) :
    Throws P (x >>= f) := by
  intro p e failed
  rw [outcome_bind] at failed
  rcases ended : outcome x p with ⟨error | a, q⟩
  · rw [ended] at failed
    cases failed
    exact first p e (congrArg Prod.fst ended)
  · rw [ended] at failed
    exact next a q e failed

end Throws

variable (store : Store σ) (h : Hierarchy) (settings : LoadSettings) (path : NodePath)

theorem ask_throws (r : Request) : Throws (LoadError.At path) (ask store path r) := by
  intro p e failed
  rcases answered : store.answer r p.store with ⟨error | a, s⟩
  · rw [outcome_ask_error answered] at failed
    cases failed
    exact .store error
  · rw [outcome_ask_ok answered] at failed
    cases failed

theorem columnsOf_throws (table : String) : Throws (LoadError.At path) (columnsOf store path table) := by
  unfold columnsOf
  refine .bind .read fun p => ?_
  split
  · exact .pure _
  · refine .bind (ask_throws store path _) fun columns => ?_
    split
    · exact .bind (.fail (.misfit _)) fun _ => .bind (.update _) fun _ => .pure _
    · exact .bind (.update _) fun _ => .pure _

theorem columnValues_at (attributes : TextMap String) (columns : List CatalogColumn) {e : LoadError}
    (failed : columnValues path attributes columns = .error e) : e.At path := by
  induction columns with
  | nil => cases failed
  | cons c rest ih =>
    rw [columnValues] at failed
    have later : ∀ value, (do
        let others ← columnValues path attributes rest
        Pure.pure ((c.name, value) :: others) : Except LoadError _) = .error e → e.At path := by
      intro value failed
      cases ended : columnValues path attributes rest with
      | error found =>
        rw [ended] at failed
        cases failed
        exact ih ended
      | ok others =>
        rw [ended] at failed
        cases failed
    split at failed
    · exact later _ failed
    · split at failed
      · exact later _ failed
      · cases failed
        exact .misfit _

theorem operandsFor_at (type : String) (attributes : TextMap String) (columns : List CatalogColumn) {e : LoadError}
    (failed : operandsFor h path type attributes columns = .error e) : e.At path := by
  unfold operandsFor at failed
  split at failed
  · cases failed
    exact .misfit _
  · split at failed
    · cases failed
      exact .misfit _
    · exact columnValues_at path attributes _ failed

theorem findOrInsert_throws (type : String) (values : List (String × Option Operand)) :
    Throws (LoadError.At path) (findOrInsert store path type values) := by
  unfold findOrInsert
  refine .bind (ask_throws store path _) fun found => ?_
  split
  · split
    · exact .fail (.store _)
    · exact .bind (.update _) fun _ => .pure _
  · exact .bind (ask_throws store path _) fun id => .bind (.update _) fun _ => .pure _

theorem upsert_throws (type : String) (attributes : TextMap String) :
    Throws (LoadError.At path) (upsert store h path type attributes) := by
  rw [upsert_eq]
  refine .bind (columnsOf_throws store path type) fun columns => ?_
  refine .bind (.lift fun e => operandsFor_at h path type attributes columns) fun values => ?_
  exact findOrInsert_throws store path type values

theorem insertUnlessPresent_throws (table : String) (ids : List (String × Int)) (nulls : List String) :
    Throws (LoadError.At path) (insertUnlessPresent store path table ids nulls) := by
  unfold insertUnlessPresent
  refine .bind (ask_throws store path _) fun found => ?_
  split
  · exact .bind (ask_throws store path _) fun _ => .pure _
  · exact .pure _

theorem recordRelationship_throws (leaf : String) (context : Context) :
    Throws (LoadError.At path) (recordRelationship store path leaf context) := by
  unfold recordRelationship
  refine .bind (columnsOf_throws store path _) fun columns => ?_
  refine .bind (insertUnlessPresent_throws store path _ _ _) fun new => ?_
  cases new
  · exact .update _
  · exact .update _

theorem recordJunction_throws (parent child : String × Int) :
    Throws (LoadError.At path) (recordJunction store h path parent child) := by
  cases registered : h.relation? parent.1 child.1 with
  | none =>
    unfold recordJunction
    rw [registered]
    exact .pure _
  | some relation =>
    rw [recordJunction_eq store h path registered]
    refine .bind (columnsOf_throws store path _) fun columns => .bind (.lift fun e failed => ?_) fun _ => ?_
    · unfold junctionFit at failed
      split at failed
      · cases failed
        exact .misfit _
      · cases failed
    · exact .bind (insertUnlessPresent_throws store path _ _ _) fun new => .update _

theorem visitNode_throws (parent : Option (String × Int)) (context : Context) (type : String)
    (attributes : TextMap String) :
    Throws (LoadError.At path) (visitNode store h settings path parent context type attributes) := by
  cases bearing : attributes.isEmpty with
  | true =>
    unfold visitNode
    rw [bearing]
    exact .bind (.update _) fun _ => .pure _
  | false =>
    rw [visitNode_bearing _ _ _ _ _ _ _ bearing]
    refine .bind (upsert_throws store h path type attributes) fun id => .bind ?_ fun _ => .bind ?_ fun _ => .pure _
    · unfold surround
      split
      · exact recordRelationship_throws store path type _
      · exact .pure _
    · unfold pair
      split
      · split
        · exact recordJunction_throws store h path _ _
        · exact .pure _
      · exact .pure _

mutual

/-- Visiting a tree fails at one of its nodes only. -/
theorem visit_throws (above : List Label) : (t : Tree) → (path : NodePath) → (parent : Option (String × Int)) →
    (context : Context) →
    Throws (fun e => ∃ x ∈ t.trailsAt path above, e.At x.path) (visit store h settings path parent context t)
  | ⟨type, attributes, children⟩, path, parent, context => by
    rw [visit]
    refine .bind ((visitNode_throws store h settings path parent context type attributes).mono fun e place => ?_)
      fun ⟨id, context⟩ => ?_
    · exact ⟨_, List.mem_cons_self, place⟩
    · refine (visitChildren_throws (⟨type, attributes⟩ :: above) children path _ context 0).mono ?_
      exact fun e ⟨x, mem, place⟩ => ⟨x, List.mem_cons_of_mem _ mem, place⟩

theorem visitChildren_throws (above : List Label) : (ts : List Tree) → (path : NodePath) →
    (parent : Option (String × Int)) → (context : Context) → (index : Nat) →
    Throws (fun e => ∃ x ∈ Tree.trailsBelow path above index ts, e.At x.path)
      (visitChildren store h settings path parent context index ts)
  | [], _, _, _, _ => .pure _
  | c :: rest, path, parent, context, index => by
    rw [visitChildren]
    refine .bind ((visit_throws above c _ parent context).mono fun e ⟨x, mem, place⟩ => ?_) fun _ => ?_
    · exact ⟨x, List.mem_append_left _ mem, place⟩
    · refine (visitChildren_throws above rest path parent context (index + 1)).mono fun e ⟨x, mem, place⟩ => ?_
      exact ⟨x, List.mem_append_right _ mem, place⟩

end

end Loader

end TreeStore
