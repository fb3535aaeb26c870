import TreeStore.Proofs.Store.Table

/-! What queries and insertions do, said by the rows and cells of a table: a query finds the rows for which
all its conditions hold, and a new row has the given cells, null elsewhere, and an id of its own. -/

namespace TreeStore

def StoredTable.add {V : Type} (t : StoredTable V) (row : Cells V) : StoredTable V :=
  { t with rows := t.rows ++ [row] }

namespace Database

variable {V : Type} (vs : ValueSystem V)

/-! ### Queries -/

/-- Whether a condition can be tested on a table's rows: its column is there, and its value can be read. -/
def Testable (t : StoredTable V) : Condition → Prop
  | .isNull column => (t.column? column).isSome = true
  | .equals column o => ∃ c, t.column? column = some c ∧ (Cell.ofOperand? vs c.type o).isSome = true

def holds (t : StoredTable V) (row : Cells V) : Condition → Bool
  | .isNull column => (t.cell row column).isNone
  | .equals column o => ((t.column? column).bind fun c => Cell.ofOperand? vs c.type o).any fun x =>
    (t.cell row column).any (·.same vs x)

theorem column?_iff_position? {t : StoredTable V} {name : String} :
    (t.column? name).isSome = (t.position? name).isSome := by
  rw [Bool.eq_iff_iff, StoredTable.column?_isSome, StoredTable.position?_isSome]

theorem testOf_ok {t : StoredTable V} {c : Condition} (testable : Testable vs t c) :
    testOf vs t c = .ok fun row => holds vs t row c := by
  cases c with
  | isNull column =>
    rw [Testable, column?_iff_position?] at testable
    obtain ⟨n, at_⟩ := Option.isSome_iff_exists.1 testable
    simp only [testOf, at_, holds, StoredTable.cell, Option.bind_some]
  | equals column o =>
    obtain ⟨c, found, read⟩ := testable
    have placed : (t.position? column).isSome = true := by rw [← column?_iff_position?, found]; rfl
    obtain ⟨n, at_⟩ := Option.isSome_iff_exists.1 placed
    obtain ⟨x, value⟩ := Option.isSome_iff_exists.1 read
    simp only [testOf, found, at_, value, holds, StoredTable.cell, Option.bind_some, Option.any_some]

theorem testOf_error {t : StoredTable V} {c : Condition} (untestable : ¬ Testable vs t c) :
    testOf vs t c = failure .execution := by
  cases c with
  | isNull column =>
    rw [Testable, column?_iff_position?] at untestable
    simp only [testOf, Option.not_isSome_iff_eq_none.1 untestable]
  | equals column o =>
    cases found : t.column? column with
    | none => simp only [testOf, found]
    | some c =>
      have unread : Cell.ofOperand? vs c.type o = none := by
        rw [← Option.not_isSome_iff_eq_none]
        exact fun read => untestable ⟨c, found, read⟩
      have placed : (t.position? column).isSome = true := by rw [← column?_iff_position?, found]; rfl
      obtain ⟨n, at_⟩ := Option.isSome_iff_exists.1 placed
      simp only [testOf, found, at_, unread]

theorem tests_ok {t : StoredTable V} {cs : List Condition} (testable : ∀ c ∈ cs, Testable vs t c) :
    cs.mapM (testOf vs t) = .ok (cs.map fun c row => holds vs t row c) := by
  rw [mapM_eq_ok, List.forall₂_map_right_iff, List.forall₂_same]
  exact fun c hc => testOf_ok vs (testable c hc)

theorem tests_error {t : StoredTable V} {cs : List Condition} (untestable : ∃ c ∈ cs, ¬ Testable vs t c) :
    cs.mapM (testOf vs t) = failure .execution := by
  induction cs with
  | nil => obtain ⟨c, hc, _⟩ := untestable; cases hc
  | cons c rest ih =>
    by_cases first : Testable vs t c
    · rw [List.mapM_cons, testOf_ok vs first, ih]
      · rfl
      · obtain ⟨d, hd, bad⟩ := untestable
        rcases List.mem_cons.1 hd with rfl | hd
        · exact absurd first bad
        · exact ⟨d, hd, bad⟩
    · rw [List.mapM_cons, testOf_error vs first]
      rfl

def matching (t : StoredTable V) (cs : List Condition) : List (Cells V) :=
  t.rows.filter fun row => cs.all (holds vs t row)

theorem checkSelection_ok {t : StoredTable V} {q : Select}
    (columns : ∀ names, q.selection = .columns names → ∀ n ∈ names, (t.column? n).isSome = true)
    (order : ∀ n ∈ q.orderBy, (t.column? n).isSome = true) : checkSelection t q = .ok () := by
  unfold checkSelection
  refine if_neg ?_
  rw [Bool.not_eq_true, List.any_eq_false]
  intro n hn
  have there : (t.column? n).isSome = true := by
    rcases List.mem_append.1 hn with hn | hn
    · cases selection : q.selection with
      | columns names => rw [selection] at hn; exact columns names selection n hn
      | all => rw [selection] at hn; cases hn
      | one => rw [selection] at hn; cases hn
    · exact order n hn
  simpa using Option.isSome_iff_ne_none.1 there

section Select

variable {db : Database V} {q : Select} {t : StoredTable V} (found : db.table? q.table = some t)
  (selected : checkSelection t q = .ok ())
include found selected

theorem select_first (testable : ∀ c ∈ q.conditions, Testable vs t c) (order : q.orderBy = [])
    (first : q.firstOnly = true) : db.select vs q =
      .ok ((t.rows.find? fun row => q.conditions.all (holds vs t row)).toList.map
        (project vs t · q.selection)) := by
  unfold select
  simp only [found, selected, ok_bind, tests_ok vs testable, order, List.isEmpty_nil, if_true, first,
    List.all_map, Function.comp_def, List.take_one, List.head?_filter]
  rfl

theorem select_all (testable : ∀ c ∈ q.conditions, Testable vs t c) (first : q.firstOnly = false) :
    ∃ rows : List (Cells V), rows.Perm (matching vs t q.conditions) ∧
      db.select vs q = .ok (rows.map (project vs t · q.selection)) := by
  unfold select matching
  simp only [found, selected, ok_bind, tests_ok vs testable, first, Bool.false_eq_true, if_false,
    List.all_map, Function.comp_def]
  split
  · exact ⟨_, .refl _, rfl⟩
  · exact ⟨_, List.mergeSort_perm _ _, rfl⟩

theorem select_error (untestable : ∃ c ∈ q.conditions, ¬ Testable vs t c) :
    db.select vs q = failure .execution := by
  unfold select
  simp only [found, selected, ok_bind, tests_error vs untestable]
  rfl

end Select

/-! ### New rows -/

def givenCell (values : List (String × Operand)) (c : Column) : Option (Cell V) :=
  (values.find? (sameName ·.1 c.name)).bind fun v => Cell.ofOperand? vs c.type v.2

def Readable (values : List (String × Operand)) (c : Column) : Prop :=
  ∀ v, values.find? (sameName ·.1 c.name) = some v → (Cell.ofOperand? vs c.type v.2).isSome = true

theorem newCell_plain {values : List (String × Operand)} {c : Column} (readable : Readable vs values c)
    (noDefault : c.default? = none) (sequences : List (String × Int)) :
    newCell vs values c sequences = .ok (givenCell vs values c, sequences) := by
  unfold newCell givenCell
  cases found : values.find? (sameName ·.1 c.name) with
  | none => simp only [noDefault, Option.bind_none]
  | some v =>
    obtain ⟨x, read⟩ := Option.isSome_iff_exists.1 (readable v found)
    simp only [read, Option.bind_some]

theorem newRow_plain {values : List (String × Operand)} {cs : List Column}
    (readable : ∀ c ∈ cs, Readable vs values c) (noDefault : ∀ c ∈ cs, c.default? = none)
    (sequences : List (String × Int)) :
    newRow vs values cs sequences = .ok (cs.map (givenCell vs values), sequences) := by
  induction cs with
  | nil => rfl
  | cons c rest ih =>
    rw [newRow, newCell_plain vs (readable c List.mem_cons_self) (noDefault c List.mem_cons_self)]
    simp only [ok_bind, ih (fun d hd => readable d (List.mem_cons_of_mem _ hd))
      fun d hd => noDefault d (List.mem_cons_of_mem _ hd)]
    rfl

/-! ### Added rows -/

theorem table?_addRow (db : Database V) (name : String) (row : Cells V) (n : String) :
    (db.addRow name row).table? n =
      (db.table? n).map fun t => if sameName t.name name then t.add row else t := by
  have names : (fun t : StoredTable V => sameName (if sameName t.name name then t.add row else t).name n) =
      fun t => sameName t.name n := by
    funext t
    by_cases same : sameName t.name name = true
    · rw [if_pos same, StoredTable.add]
    · rw [if_neg same]
  have find := List.find?_map (f := fun t : StoredTable V => if sameName t.name name then t.add row else t)
    (p := fun t => sameName t.name n) (l := db.tables)
  rw [Function.comp_def, names] at find
  exact find

end Database

end TreeStore
