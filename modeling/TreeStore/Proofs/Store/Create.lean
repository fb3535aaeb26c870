import TreeStore.Proofs.Store.Values
import TreeStore.Store.Apply

/-! Creating the tables of a model in an empty database: every table is created, and what is there at the
end is written down. -/

namespace TreeStore

/-! ### Statements -/

namespace Store

variable {σ : Type} (store : Store σ) (report : ApplyReport) (s : σ)

theorem applyStatement_create (t : Table) :
    (store.applyStatement report s (.create t)).2 = (store.answer (.create t) s).2 := by
  rw [applyStatement]
  rcases store.answer (.create t) s with ⟨error | _, s'⟩
  · dsimp only
    split <;> rfl
  · rfl

theorem applyStatement_register (e : HierarchyEntry) :
    (store.applyStatement report s (.register e)).2 = (Registry.register store e s).2 := by
  rw [applyStatement]
  rcases Registry.register store e s with ⟨error | new, s'⟩
  · rfl
  · cases new <;> rfl

end Store

namespace Database

variable {V : Type} (vs : ValueSystem V)

theorem table?_congr (db : Database V) {a b : String} (same : Text.lower a = Text.lower b) :
    db.table? a = db.table? b := by
  rw [table?, table?]
  congr 1
  funext t
  rw [Bool.eq_iff_iff, sameName_iff, sameName_iff, same]

theorem checkReference_ok {db : Database V} {new : StoredTable V} {target : String} {u : StoredTable V}
    (found : db.table? target = some u) (key : u.hasIdKey = true) (other : sameName target new.name = false) :
    db.checkReference new target = .ok () := by
  rw [checkReference, other]
  simp only [Bool.false_eq_true, if_false, found, key, if_true]

theorem checkDefinition_ok {db : Database V} {t : Table} {done : List Table} (creatable : t.Creatable done)
    (distinct : (t.columns.map (Text.lower ·.name)).Nodup) (apart : ∀ u ∈ done, sameName u.name t.name = false)
    (sequences : ∀ q, t.sequence? = some q → db.hasSequence q = true)
    (there : ∀ u ∈ done, u.HasIdKey → db.table? u.name = some (stored vs u)) :
    db.checkDefinition (stored vs t) = .ok () := by
  have nonempty : (stored vs t).columns.isEmpty = false := by
    simpa [stored] using creatable.columns
  have repeated : hasRepeated ((stored vs t).columns.map (·.name)) = false := by
    rw [hasRepeated_eq_false, List.map_map]
    exact stored_distinct vs distinct
  have keys : ((stored vs t).columns.filter (·.primaryKey)).length =
      (t.columns.filter (·.primaryKey)).length := by
    simp only [stored, List.filter_map, List.length_map, Function.comp_def]
  have keyColumns : (t.primaryKey.any fun k => ((stored vs t).column? k).isNone) = false := by
    rw [List.any_eq_false]
    intro k hk
    obtain ⟨c, hc, name⟩ := creatable.keyColumns k hk
    have found : ((stored vs t).column? k).isSome = true :=
      StoredTable.column?_isSome.2 ⟨_, (mem_stored_columns vs).2 ⟨c, hc, rfl⟩, name ▸ sameName_self _⟩
    simpa using Option.isSome_iff_ne_none.1 found
  have oneKey : ¬ 1 < (t.columns.filter (·.primaryKey)).length + if t.primaryKey.isEmpty then 0 else 1 :=
    Nat.not_lt.2 creatable.oneKey
  unfold checkDefinition
  simp only [nonempty, repeated, keys, keyColumns, Bool.or_false, show (stored vs t).primaryKey = t.primaryKey
    from rfl, oneKey, decide_false, Bool.false_eq_true, if_false, seq_eq_ok, forM_eq_ok]
  constructor
  · intro c hc
    obtain ⟨d, hd, rfl⟩ := (mem_stored_columns vs).1 hc
    dsimp only
    cases default : d.default? with
    | none => rfl
    | some e =>
      obtain ⟨q, rfl, hq⟩ := creatable.defaults d hd e default
      simp only [sequences q hq, if_true]
      rfl
  · intro c hc
    obtain ⟨d, hd, rfl⟩ := (mem_stored_columns vs).1 hc
    dsimp only
    cases reference : d.references? with
    | none => rfl
    | some target =>
      obtain ⟨u, hu, rfl, key⟩ := creatable.references d hd target reference
      exact checkReference_ok (there u hu key) (stored_hasIdKey vs key) (apart u hu)

theorem addSequence_tables (db : Database V) (sequence? : Option String) :
    (db.addSequence sequence?).tables = db.tables := by
  unfold addSequence
  split
  · split <;> rfl
  · rfl

theorem addSequence_table? (db : Database V) (sequence? : Option String) (name : String) :
    (db.addSequence sequence?).table? name = db.table? name := by
  rw [table?, table?, addSequence_tables]

theorem types_known (ideal : vs.Ideal) {t : Table}
    (types : ∀ c ∈ t.columns, ∃ kind : ScalarKind, c.type = kind.columnType) :
    ∀ c ∈ t.columns, (vs.typeName? c.type).isSome = true := by
  intro c hc
  obtain ⟨kind, eq⟩ := types c hc
  rw [eq]
  exact ideal.known kind

/-- A table that is there is the same after another one has been created, or has not. -/
theorem create_table? {db : Database V} {name : String} {u : StoredTable V} (found : db.table? name = some u)
    (t : Table) : (db.create vs t).2.table? name = some u := by
  have before := (addSequence_table? db t.sequence? name).trans found
  unfold create
  dsimp only
  split
  · exact before
  · rw [table?] at before ⊢
    rw [List.find?_append, before, Option.some_or]

/-- A creation fails, having created a sequence at most, or its table is new and is there afterwards. -/
theorem create_cases (ideal : vs.Ideal) {t : Table}
    (types : ∀ c ∈ t.columns, ∃ kind : ScalarKind, c.type = kind.columnType) (db : Database V) :
    (∃ error, db.create vs t = (.error error, db.addSequence t.sequence?)) ∨ db.table? t.name = none ∧
      db.create vs t = (.ok (), { db.addSequence t.sequence? with tables := db.tables ++ [stored vs t] }) := by
  unfold create
  simp only [tableOf_eq vs (types_known vs ideal types), ok_bind, addSequence_table?, addSequence_tables]
  cases (db.addSequence t.sequence?).checkDefinition (stored vs t) with
  | error error => exact .inl ⟨error, rfl⟩
  | ok =>
    cases db.table? t.name with
    | some u => exact .inl ⟨.failed .alreadyExists none, rfl⟩
    | none => exact .inr ⟨rfl, rfl⟩

/-- A table that can be created is created, unless it is there. -/
theorem create_eq {db : Database V} {t : Table} {done : List Table} (ideal : vs.Ideal)
    (creatable : t.Creatable done) (distinct : (t.columns.map (Text.lower ·.name)).Nodup)
    (apart : ∀ u ∈ done, sameName u.name t.name = false)
    (there : ∀ u ∈ done, u.HasIdKey → db.table? u.name = some (stored vs u)) :
    db.create vs t = if (db.table? t.name).isSome then (failure .alreadyExists, db.addSequence t.sequence?)
      else (.ok (), { db.addSequence t.sequence? with tables := db.tables ++ [stored vs t] }) := by
  have sequences : ∀ q, t.sequence? = some q → (db.addSequence t.sequence?).hasSequence q = true := by
    intro q hq
    rw [hq]
    simp only [addSequence]
    split
    · next old => exact old
    · simp [hasSequence]
  have passed := checkDefinition_ok vs creatable distinct apart sequences
    fun u hu key => by rw [addSequence_table?]; exact there u hu key
  unfold create
  dsimp only
  simp only [tableOf_eq vs (types_known vs ideal creatable.types), ok_bind, passed, addSequence_table?,
    addSequence_tables]
  cases (db.table? t.name).isSome <;> rfl

/-! ### Laying out tables -/

def sequencesOf (ts : List Table) : List (String × Int) := (ts.filterMap (·.sequence?)).map (·, 1)

def laidOut (ts : List Table) : Database V := ⟨ts.map (stored vs), sequencesOf ts⟩

theorem table?_mem {db : Database V} {name : String} {t : StoredTable V} (found : db.table? name = some t) :
    t ∈ db.tables ∧ sameName t.name name = true :=
  ⟨List.mem_of_find?_eq_some found, List.find?_some (p := fun t : StoredTable V => sameName t.name name) found⟩

theorem table?_eq {db : Database V} (distinct : (db.tables.map (Text.lower ·.name)).Nodup)
    {t : StoredTable V} (mem : t ∈ db.tables) {name : String} (same : sameName t.name name = true) :
    db.table? name = some t := by
  cases found : db.table? name with
  | none => exact absurd same (List.find?_eq_none.1 found t mem)
  | some u =>
    obtain ⟨hu, other⟩ := table?_mem found
    have equal : Text.lower u.name = Text.lower t.name :=
      (sameName_iff.1 other).trans (sameName_iff.1 same).symm
    exact congrArg some (List.inj_on_of_nodup_map distinct hu mem equal)

end Database

end TreeStore
