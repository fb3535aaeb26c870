import TreeStore.Proofs.Load.ColumnCache
import TreeStore.Proofs.Load.Interruption

/-! What loading a node can add to a database, whatever is in it: at most a row of its own, then at most a row of its
surroundings, then at most a row of the pair with its parent. A step that fails adds no row, or the node's own one. -/

namespace TreeStore

open Database Loader

/-! ### Stores that hold a database -/

section

variable {σ V : Type}

/-- A store holds a database if each request is answered by the database, or fails from outside without effect. -/
def Store.Holds (store : Store σ) (vs : ValueSystem V) (enforce : Bool) (view : σ → Database V) : Prop :=
  ∀ r s, ((store.answer r s).1 = (Database.answer vs enforce r (view s)).1 ∧
      view (store.answer r s).2 = (Database.answer vs enforce r (view s)).2) ∨
    ∃ error, (store.answer r s).1 = .error error ∧ view (store.answer r s).2 = view s

theorem Database.store_holds (vs : ValueSystem V) (enforce : Bool) : (store vs enforce).Holds vs enforce id :=
  fun _ _ => .inl ⟨rfl, rfl⟩

theorem Store.Holds.failing {store : Store σ} {vs : ValueSystem V} {enforce : Bool} {view : σ → Database V}
    (holds : store.Holds vs enforce view) : store.failing.Holds vs enforce fun s => view s.1 := by
  rintro r ⟨s, faults⟩
  rcases store.failing_answer r s faults with ⟨error, failed⟩ | same
  · rw [failed]
    exact .inr ⟨error, rfl, rfl⟩
  · rw [same]
    exact holds r s

end

/-! ### One row at most -/

namespace Database

variable {V : Type} (vs : ValueSystem V)

/-- A database has the rows of another. Numbers may have been drawn. -/
def SameRows (db db' : Database V) : Prop := db'.tables = db.tables

/-- A database gets at most one row, made by an insertion of a kind. -/
inductive Gains (kind : StoredTable V → Insert → Prop) (db : Database V) : Database V → Prop
  | nothing {db' : Database V} (same : db.SameRows db') : Gains kind db db'
  | row {t : StoredTable V} {i : Insert} {row : Cells V} {sequences : List (String × Int)} {db' : Database V}
      (insertion : kind t i) (found : db.table? i.table = some t) (made : db.rowOf vs i t = .ok (row, sequences))
      (added : db'.tables = (db.addRow i.table row).tables) : Gains kind db db'

variable {vs} {kind : StoredTable V → Insert → Prop} {db db' db'' : Database V}

theorem Gains.refl (kind : StoredTable V → Insert → Prop) (db : Database V) : Gains vs kind db db := .nothing rfl

theorem Gains.mono {kind' : StoredTable V → Insert → Prop} (gains : Gains vs kind db db')
    (weaker : ∀ t i, kind t i → kind' t i) : Gains vs kind' db db' := by
  cases gains with
  | nothing same => exact .nothing same
  | row insertion found made added => exact .row (weaker _ _ insertion) found made added

theorem Gains.then_same (gains : Gains vs kind db db') (same : db'.SameRows db'') : Gains vs kind db db'' := by
  cases gains with
  | nothing first => exact .nothing (Eq.trans same first)
  | row insertion found made added => exact .row insertion found made (Eq.trans same added)

theorem Gains.grows (gains : Gains vs kind db db') : db.Grows db' := by
  have tables : ∀ {a b c : Database V}, a.Grows b → c.tables = b.tables → a.Grows c := by
    intro a b c grows same name
    obtain ⟨more, eq⟩ := grows name
    exact ⟨more, by rw [← eq, table?, table?, same]⟩
  cases gains with
  | nothing same => exact tables (.refl db) same
  | row insertion found made added => exact tables (.addRow db _ _) added

theorem addRow_congr {a b : String} (same : Text.lower a = Text.lower b) (row : Cells V) (db : Database V) :
    db.addRow a row = db.addRow b row := by
  simp [addRow, sameName, same]

variable (vs) in
theorem insertInto_gains (enforce : Bool) {i : Insert} {t : StoredTable V} (found : db.table? i.table = some t) :
    Gains vs (fun u j => u = t ∧ j = i) db (db.insertInto vs enforce i t).2 ∧
      ∀ error, (db.insertInto vs enforce i t).1 = .error error → db.SameRows (db.insertInto vs enforce i t).2 := by
  unfold insertInto
  cases made : db.rowOf vs i t with
  | error error => exact ⟨.refl _ _, fun _ _ => rfl⟩
  | ok drawn =>
    dsimp only
    split
    · have named : Text.lower t.name = Text.lower i.table := sameName_iff.1 (table?_mem found).2
      refine ⟨.row ⟨rfl, rfl⟩ found made ?_, fun _ failed => nomatch failed⟩
      rw [← addRow_congr named]
      rfl
    · exact ⟨.nothing rfl, fun _ _ => rfl⟩

/-- An insertion without an answer that fails adds nothing. -/
theorem insert_gains (enforce : Bool) (i : Insert) (db : Database V) :
    Gains vs (fun _ j => j = i) db (db.insert vs enforce i).2 ∧
      ∀ error, (db.insert vs enforce i).1 = .error error → db.SameRows (db.insert vs enforce i).2 := by
  unfold insert
  cases found : db.table? i.table with
  | none => exact ⟨.refl _ _, fun _ _ => rfl⟩
  | some t =>
    obtain ⟨gains, failed⟩ := insertInto_gains vs enforce found
    dsimp only
    rcases inserted : db.insertInto vs enforce i t with ⟨error | row, db'⟩
    · rw [inserted] at gains failed
      exact ⟨gains.mono fun _ _ kind => kind.2, fun _ _ => failed error rfl⟩
    · rw [inserted] at gains
      exact ⟨gains.mono fun _ _ kind => kind.2, fun _ wrong => nomatch wrong⟩

theorem insertReturning_gains (enforce : Bool) (i : Insert) (db : Database V) :
    Gains vs (fun t j => j = i ∧ (t.column? Schema.idColumn).isSome = true) db (db.insertReturning vs enforce i).2 := by
  unfold insertReturning
  cases found : db.table? i.table with
  | none => exact .refl _ _
  | some t =>
    cases numbered : t.column? Schema.idColumn with
    | none => simp only [numbered, Option.isNone_none, if_true]; exact .refl _ _
    | some c =>
      have gains := (insertInto_gains vs enforce found).1
      have kind : ∀ u j, u = t ∧ j = i → j = i ∧ (u.column? Schema.idColumn).isSome = true := by
        rintro u j ⟨rfl, rfl⟩
        exact ⟨rfl, by rw [numbered]; rfl⟩
      simp only [numbered, Option.isNone_some, Bool.false_eq_true, if_false]
      rcases inserted : db.insertInto vs enforce i t with ⟨error | row, db'⟩
      · rw [inserted] at gains
        exact gains.mono kind
      · rw [inserted] at gains
        dsimp only
        split <;> exact gains.mono kind

end Database

/-! ### Parts of a load -/

namespace Loader

variable {σ V α β : Type} (view : σ → Database V)

structure Leaves (done failed : Database V → Database V → Prop) (x : LoadM σ α) : Prop where
  ok : ∀ {p q a}, outcome x p = (.ok a, q) → done (view p.store) (view q.store)
  error : ∀ {p q e}, outcome x p = (.error e, q) → failed (view p.store) (view q.store)

variable {view} {done failed : Database V → Database V → Prop}

namespace Leaves

theorem pure (a : α) (refl : ∀ db, done db db) : Leaves view done failed (Pure.pure a : LoadM σ α) where
  ok := fun ended => by cases ended; exact refl _
  error := fun ended => nomatch ended

theorem fail (error : LoadError) (refl : ∀ db, failed db db) :
    Leaves view done failed (throw error : LoadM σ α) where
  ok := fun ended => nomatch ended
  error := fun ended => by cases ended; exact refl _

theorem bind {done₁ failed₁ done₂ failed₂ : Database V → Database V → Prop} {x : LoadM σ α} {f : α → LoadM σ β}
    (first : Leaves view done₁ failed₁ x) (next : ∀ a, Leaves view done₂ failed₂ (f a))
    (fails : ∀ a b, failed₁ a b → failed a b) (failsLater : ∀ a b c, done₁ a b → failed₂ b c → failed a c)
    (goes : ∀ a b c, done₁ a b → done₂ b c → done a c) : Leaves view done failed (x >>= f) := by
  constructor
  · intro p q b ended
    rw [outcome_bind] at ended
    rcases own : outcome x p with ⟨_ | a, w⟩
    · rw [own] at ended
      cases ended
    · rw [own] at ended
      exact goes _ _ _ (first.ok own) ((next a).ok ended)
  · intro p q e ended
    rw [outcome_bind] at ended
    rcases own : outcome x p with ⟨_ | a, w⟩
    · rw [own] at ended
      cases ended
      exact fails _ _ (first.error own)
    · rw [own] at ended
      exact failsLater _ _ _ (first.ok own) ((next a).error ended)

theorem mono {done' failed' : Database V → Database V → Prop} {x : LoadM σ α} (leaves : Leaves view done failed x)
    (weaker : ∀ db db', done db db' → done' db db') (weaker' : ∀ db db', failed db db' → failed' db db') :
    Leaves view done' failed' x :=
  ⟨fun ended => weaker _ _ (leaves.ok ended), fun ended => weaker' _ _ (leaves.error ended)⟩

/-- A part that only reads makes no difference to what follows. -/
theorem reads {x : LoadM σ α} {f : α → LoadM σ β} (first : Leaves view Eq Eq x)
    (next : ∀ a, Leaves view done failed (f a)) (refl : ∀ db, failed db db) : Leaves view done failed (x >>= f) := by
  refine first.bind next ?_ ?_ ?_
  · rintro a _ rfl
    exact refl a
  · rintro a _ c rfl later
    exact later
  · rintro a _ c rfl later
    exact later

/-- Counting and the like make no difference to what comes before. -/
theorem then_reads {x : LoadM σ α} {f : α → LoadM σ β} (first : Leaves view done failed x)
    (next : ∀ a, Leaves view Eq (fun _ _ => False) (f a)) : Leaves view done failed (x >>= f) := by
  refine first.bind next (fun _ _ => id) (fun _ _ _ _ => False.elim) ?_
  rintro a b _ own rfl
  exact own

theorem lift {x : Except LoadError α} {f : α → LoadM σ β} (next : ∀ a, x = .ok a → Leaves view done failed (f a))
    (refl : ∀ db, failed db db) : Leaves view done failed (liftM x >>= f) := by
  cases x with
  | error error => exact .fail error refl
  | ok a => exact next a rfl

theorem count (f : LoadReport → LoadReport) : Leaves view Eq failed (Loader.count f : LoadM σ Unit) where
  ok := fun ended => by cases ended; rfl
  error := fun ended => nomatch ended

end Leaves

/-! ### Insertions of a node -/

structure EntityInsert (h : Hierarchy) (l : Label) (t : StoredTable V) (i : Insert) : Prop where
  table : i.table = l.type
  numbered : (t.column? Schema.idColumn).isSome = true
  values : ∃ columns, i.values = givenValues (nodeValues l.attributes (attributeColumns h l.type columns))

def idOperands (ids : List (String × Int)) : List (String × Operand) := ids.map fun v => (v.1, { param := .int v.2 })

structure SurroundingsInsert (h : Hierarchy) (type : String) (i : Insert) : Prop where
  leaf : h.isLeaf type = true
  table : i.table = Schema.relationshipsTable type
  values : ∃ (context : Context) (id : Int) (columns : List CatalogColumn),
    i.values = idOperands (columns.filterMap fun c => (contextId? (context.insert type id) c).map (c.name, ·))

structure PairInsert (h : Hierarchy) (type : String) (i : Insert) : Prop where
  pair : ∃ parent id relation, h.relation? parent.1 type = some relation ∧
    i.table = Schema.junctionTable parent.1 relation ∧ i.values = idOperands (pairIds parent (type, id))

theorem columnValues_ok {path : NodePath} {attributes : TextMap String} {columns : List CatalogColumn}
    {values : List (String × Option Operand)} (ok : columnValues path attributes columns = .ok values) :
    values = nodeValues attributes columns := by
  induction columns generalizing values with
  | nil =>
    cases ok
    rfl
  | cons c rest ih =>
    have later : ∀ value, (do
        let others ← columnValues path attributes rest
        Pure.pure ((c.name, value) :: others) : Except LoadError _) = .ok values →
          values = (c.name, value) :: nodeValues attributes rest := by
      intro value ok
      obtain ⟨others, tail, ok⟩ := bind_eq_ok.1 ok
      cases ok
      rw [ih tail]
    rw [columnValues] at ok
    rw [nodeValues, List.map_cons]
    cases given : valueFor? attributes c with
    | none =>
      rw [given] at ok
      exact later none ok
    | some text =>
      rw [given] at ok
      dsimp only at ok
      split at ok
      · exact later _ ok
      · cases ok

theorem operandsFor_ok {h : Hierarchy} {path : NodePath} {type : String} {attributes : TextMap String}
    {columns : List CatalogColumn} {values : List (String × Option Operand)}
    (ok : operandsFor h path type attributes columns = .ok values) :
    values = nodeValues attributes (attributeColumns h type columns) := by
  unfold operandsFor at ok
  split at ok
  · cases ok
  · split at ok
    · cases ok
    · exact columnValues_ok ok

section Parts

variable {store : Store σ} {vs : ValueSystem V} {enforce : Bool} (holds : store.Holds vs enforce view)
  (path : NodePath) (h : Hierarchy) (settings : LoadSettings)
include holds

theorem ask_leaves {r : Request}
    (ok : ∀ db db' a, Database.answer vs enforce r db = (.ok a, db') → done db db')
    (error : ∀ db db' e, Database.answer vs enforce r db = (.error e, db') → failed db db')
    (refl : ∀ db, failed db db) : Leaves view done failed (ask store path r) := by
  constructor
  · intro p q a ended
    rcases answered : store.answer r p.store with ⟨e | b, s⟩
    · rw [outcome_ask_error answered] at ended
      cases ended
    · rw [outcome_ask_ok answered] at ended
      cases ended
      rcases holds r p.store with ⟨result, moved⟩ | ⟨e, failed, _⟩
      · rw [answered] at result moved
        exact ok _ _ a (Prod.ext result.symm moved.symm)
      · rw [answered] at failed
        cases failed
  · intro p q e ended
    rcases answered : store.answer r p.store with ⟨e | b, s⟩
    · rw [outcome_ask_error answered] at ended
      cases ended
      rcases holds r p.store with ⟨result, moved⟩ | ⟨_, _, kept⟩
      · rw [answered] at result moved
        exact error _ _ _ (Prod.ext result.symm moved.symm)
      · rw [answered] at kept
        dsimp only at kept ⊢
        rw [kept]
        exact refl _
    · rw [outcome_ask_ok answered] at ended
      cases ended

theorem select_reads (q : Select) : Leaves view Eq Eq (ask store path (.select q)) :=
  ask_leaves holds path (fun _ _ _ answered => congrArg Prod.snd answered)
    (fun _ _ _ answered => congrArg Prod.snd answered) fun _ => rfl

theorem columnsOf_reads (table : String) : Leaves view Eq Eq (columnsOf store path table) := by
  have asked : Leaves view Eq Eq (ask store path (.columnsOf table)) :=
    ask_leaves holds path (fun _ _ _ answered => congrArg Prod.snd answered)
      (fun _ _ _ answered => congrArg Prod.snd answered) fun _ => rfl
  have remembered : ∀ columns, Leaves view Eq Eq (remember path table columns : LoadM σ _) := fun columns => by
    unfold remember
    split
    · exact .fail _ fun _ => rfl
    · constructor
      · intro p q a ended
        cases ended
        rfl
      · intro p q e ended
        cases ended
  have both := asked.reads remembered fun _ => rfl
  constructor
  · intro p q a ended
    cases known : p.columns.get? (Text.lower table) with
    | some columns =>
      rw [columnsOf_known store path known] at ended
      cases ended
      rfl
    | none =>
      rw [columnsOf_unknown store path known] at ended
      exact both.ok ended
  · intro p q e ended
    cases known : p.columns.get? (Text.lower table) with
    | some columns =>
      rw [columnsOf_known store path known] at ended
      cases ended
    | none =>
      rw [columnsOf_unknown store path known] at ended
      exact both.error ended

theorem findOrInsert_leaves (type : String) (values : List (String × Option Operand)) :
    Leaves view (Gains vs fun t i => i = ⟨type, givenValues values⟩ ∧ (t.column? Schema.idColumn).isSome = true)
      (Gains vs fun t i => i = ⟨type, givenValues values⟩ ∧ (t.column? Schema.idColumn).isSome = true)
      (findOrInsert store path type values) := by
  unfold findOrInsert
  refine (select_reads holds path _).reads (fun rows => ?_) (Gains.refl _)
  split
  · split
    · exact .fail _ (Gains.refl _)
    · exact .reads (.count _) (fun _ => .pure _ (Gains.refl _)) (Gains.refl _)
  · have inserted : Leaves view _ _ (ask store path (.insertReturning ⟨type, givenValues values⟩)) :=
      ask_leaves holds path
        (fun db db' a answered => (congrArg Prod.snd answered : _ = db') ▸ insertReturning_gains enforce _ db)
        (fun db db' e answered => (congrArg Prod.snd answered : _ = db') ▸ insertReturning_gains enforce _ db)
        (Gains.refl _)
    exact inserted.then_reads fun _ => .then_reads (.count _) fun _ => .pure _ fun _ => rfl

theorem upsert_leaves (l : Label) : Leaves view (Gains vs (EntityInsert h l)) (Gains vs (EntityInsert h l))
    (upsert store h path l.type l.attributes) := by
  rw [upsert_eq]
  refine (columnsOf_reads holds path l.type).reads (fun columns => ?_) (Gains.refl _)
  refine .lift (fun values found => ?_) (Gains.refl _)
  have gains := findOrInsert_leaves holds path l.type values
  have kind : ∀ (t : StoredTable V) (i : Insert), i = ⟨l.type, givenValues values⟩ ∧
      (t.column? Schema.idColumn).isSome = true → EntityInsert h l t i := by
    rintro t _ ⟨rfl, numbered⟩
    exact ⟨rfl, numbered, columns, by rw [operandsFor_ok found]⟩
  exact gains.mono (fun _ _ gained => gained.mono kind) fun _ _ gained => gained.mono kind

/-- Either a row of ids is there or it is inserted; if that fails there is no new row. -/
theorem insertUnlessPresent_leaves (table : String) (ids : List (String × Int)) (nulls : List String) :
    Leaves view (Gains vs fun _ i => i = ⟨table, idOperands ids⟩) SameRows
      (insertUnlessPresent store path table ids nulls) := by
  unfold insertUnlessPresent
  refine (select_reads holds path _).reads (fun rows => ?_) fun _ => rfl
  split
  · have inserted : Leaves view (Gains vs fun _ i => i = ⟨table, idOperands ids⟩) SameRows
        (ask store path (.insert ⟨table, idOperands ids⟩)) := by
      refine ask_leaves holds path (fun db db' a answered => ?_) (fun db db' e answered => ?_) fun _ => rfl
      · rw [← show _ = db' from congrArg Prod.snd answered]
        exact (insert_gains enforce _ db).1
      · rw [← show _ = db' from congrArg Prod.snd answered]
        exact (insert_gains enforce _ db).2 e (congrArg Prod.fst answered)
    exact inserted.then_reads fun _ => .pure _ fun _ => rfl
  · exact .pure _ (Gains.refl _)

theorem surround_leaves (type : String) (context : Context) (id : Int) :
    Leaves view (Gains vs fun _ i => SurroundingsInsert h type i) SameRows
      (surround store h path type (context.insert type id)) := by
  unfold surround
  split
  · next leaf =>
    unfold recordRelationship
    refine (columnsOf_reads holds path _).reads (fun columns => ?_) fun _ => rfl
    have gains := insertUnlessPresent_leaves holds path (Schema.relationshipsTable type)
      (columns.filterMap fun c => (contextId? (context.insert type id) c).map (c.name, ·))
      ((columns.filter fun c => (contextId? (context.insert type id) c).isNone).map (·.name))
    refine (gains.mono (fun _ _ gained => gained.mono ?_) fun _ _ same => same).then_reads fun new => ?_
    · rintro _ _ rfl
      exact ⟨leaf, rfl, context, id, columns, rfl⟩
    · split
      · exact .count _
      · exact .count _
  · exact .pure _ (Gains.refl _)

theorem pair_leaves (parent : Option (String × Int)) (type : String) (id : Int) :
    Leaves view (Gains vs fun _ i => PairInsert h type i) SameRows
      (pair store h settings path parent (type, id)) := by
  unfold pair
  cases parent with
  | none => exact .pure _ (Gains.refl _)
  | some parent =>
    dsimp only
    cases settings.recordJunctions with
    | false => exact .pure _ (Gains.refl _)
    | true =>
      cases registered : h.relation? parent.1 type with
      | none =>
        unfold recordJunction
        dsimp only
        rw [registered]
        exact .pure _ (Gains.refl _)
      | some relation =>
        rw [if_pos rfl, recordJunction_eq store h path registered]
        refine (columnsOf_reads holds path _).reads (fun columns => ?_) fun _ => rfl
        refine .lift (fun _ _ => ?_) fun _ => rfl
        have gains := insertUnlessPresent_leaves holds path (Schema.junctionTable parent.1 relation)
          (pairIds parent (type, id)) []
        refine (gains.mono (fun _ _ gained => gained.mono ?_) fun _ _ same => same).then_reads fun new => .count _
        rintro _ _ rfl
        exact ⟨parent, id, relation, registered, rfl, rfl⟩

end Parts

end Loader

/-! ### A node -/

namespace Database

variable {V : Type} (vs : ValueSystem V) (h : Hierarchy)

def GainsOwn (l : Label) (db db' : Database V) : Prop :=
  ∃ mid, db.Gains vs (EntityInsert h l) mid ∧ mid.Gains vs (fun _ i => SurroundingsInsert h l.type i) db'

/-- At most a row of a node, a row of its surroundings and a row of the pair with its parent are added. -/
def GainsNode (l : Label) (db db' : Database V) : Prop :=
  ∃ mid, db.GainsOwn vs h l mid ∧ mid.Gains vs (fun _ i => PairInsert h l.type i) db'

variable {vs h} {l : Label} {db db' : Database V}

theorem GainsOwn.refl : GainsOwn vs h l db db := ⟨db, .refl _ _, .refl _ _⟩

theorem GainsNode.refl : GainsNode vs h l db db := ⟨db, .refl, .refl _ _⟩

theorem GainsOwn.grows (gains : GainsOwn vs h l db db') : db.Grows db' := by
  obtain ⟨mid, own, near⟩ := gains
  exact own.grows.trans near.grows

theorem GainsNode.grows (gains : GainsNode vs h l db db') : db.Grows db' := by
  obtain ⟨mid, own, pair⟩ := gains
  exact own.grows.trans pair.grows

theorem GainsOwn.node (gains : GainsOwn vs h l db db') : GainsNode vs h l db db' := ⟨db', gains, .refl _ _⟩

end Database

namespace Loader

variable {σ V : Type} {view : σ → Database V} {store : Store σ} {vs : ValueSystem V} {enforce : Bool}

/-- What a node adds, and what it adds before it fails. -/
theorem visitNode_leaves (holds : store.Holds vs enforce view) (h : Hierarchy) (settings : LoadSettings)
    (path : NodePath) (parent : Option (String × Int)) (context : Context) (l : Label) :
    Leaves view (GainsNode vs h l) (GainsOwn vs h l)
      (visitNode store h settings path parent context l.type l.attributes) := by
  cases empty : l.attributes.isEmpty with
  | true =>
    unfold visitNode
    rw [empty]
    exact .reads (.count _) (fun _ => .pure _ fun _ => .refl) fun _ => .refl
  | false =>
    rw [visitNode_bearing store h settings path parent context l.type empty]
    have paired : ∀ id, Leaves view (Gains vs fun _ i => PairInsert h l.type i) SameRows (do
        pair store h settings path parent (l.type, id)
        return (some id, context.insert l.type id)) := fun id =>
      (pair_leaves holds path h settings parent l.type id).then_reads fun _ => .pure _ fun _ => rfl
    have recorded : ∀ id, Leaves view (fun a c => ∃ b, Gains vs (fun _ i => SurroundingsInsert h l.type i) a b ∧
        Gains vs (fun _ i => PairInsert h l.type i) b c) (Gains vs fun _ i => SurroundingsInsert h l.type i) (do
        surround store h path l.type (context.insert l.type id)
        pair store h settings path parent (l.type, id)
        return (some id, context.insert l.type id)) := fun id =>
      (surround_leaves holds path h l.type context id).bind (fun _ => paired id) (fun _ _ => .nothing)
        (fun _ _ _ near same => near.then_same same) fun _ b _ near pair => ⟨b, near, pair⟩
    exact (upsert_leaves holds path h l).bind recorded (fun _ b own => ⟨b, own, .refl _ _⟩)
      (fun _ b _ own near => ⟨b, own, near⟩) fun _ b _ own ⟨mid, near, pair⟩ => ⟨mid, ⟨b, own, near⟩, pair⟩

end Loader

end TreeStore
