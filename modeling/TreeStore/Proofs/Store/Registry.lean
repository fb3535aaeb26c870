import Mathlib.Data.List.Perm.Basic
import TreeStore.Proofs.Store.Create
import TreeStore.Proofs.Store.Query
import TreeStore.Store.Registry

/-! The hierarchy's table: its rows are the entries of a hierarchy, registering an entry enters it, and
reading the table gives the hierarchy back, up to the order of its entries. -/

namespace TreeStore

namespace Database

variable {V : Type} (vs : ValueSystem V)

def textType : String := catalogType vs "VARCHAR"

def textCell (s : String) : Option (Cell V) := (vs.ofText? (textType vs) s).map .value

def entryRow (e : HierarchyEntry) : Cells V := [e.parent, e.child, e.relation].map (textCell vs)

def registryOf (h : Hierarchy) : StoredTable V :=
  { stored vs Schema.registry with rows := h.entries.map (entryRow vs) }

def withHierarchy (others : List (StoredTable V)) (sequences : List (String × Int)) (h : Hierarchy) :
    Database V :=
  ⟨registryOf vs h :: others, sequences⟩

def enter (h : Hierarchy) (e : HierarchyEntry) (db : Database V) : Database V :=
  if h.has e.parent e.child then db else db.addRow Schema.registryTable (entryRow vs e)

def enterAll (h : Hierarchy) : List HierarchyEntry → Database V → Database V
  | [], db => db
  | e :: rest, db => enterAll (h.insert e) rest (enter vs h e db)

theorem withHierarchy_table? (others : List (StoredTable V)) (sequences : List (String × Int))
    (h : Hierarchy) :
    (withHierarchy vs others sequences h).table? Schema.registryTable = some (registryOf vs h) :=
  List.find?_cons_of_pos (sameName_self _)

/-! ### Its columns and cells -/

def registryColumn (name : String) : Column := { name, type := textType vs, notNull := true }

theorem registryOf_columns (h : Hierarchy) : (registryOf vs h).columns =
    [Schema.parentColumn, Schema.childColumn, Schema.relationColumn].map (registryColumn vs) := rfl

theorem registryOf_distinct (h : Hierarchy) : (registryOf vs h).Distinct := by
  have names : ((registryOf vs h).columns.map (Text.lower ·.name)) =
      [Schema.parentColumn, Schema.childColumn, Schema.relationColumn].map Text.lower := rfl
  rw [StoredTable.Distinct, names]
  decide

theorem registry_position (h : Hierarchy) {i : Nat} {name : String}
    (listed : [Schema.parentColumn, Schema.childColumn, Schema.relationColumn][i]? = some name) :
    (registryOf vs h).position? name = some i := by
  refine StoredTable.position?_eq (c := registryColumn vs name) (registryOf_distinct vs h) ?_
    (sameName_self name)
  rw [registryOf_columns, List.getElem?_map, listed]
  rfl

theorem registry_column (h : Hierarchy) (name : String)
    (listed : name ∈ [Schema.parentColumn, Schema.childColumn, Schema.relationColumn]) :
    (registryOf vs h).column? name = some (registryColumn vs name) := by
  refine StoredTable.column?_eq (c := registryColumn vs name) (registryOf_distinct vs h) ?_
    (sameName_self name)
  rw [registryOf_columns]
  exact List.mem_map_of_mem listed

theorem registry_cell (h : Hierarchy) (e : HierarchyEntry) {i : Nat} {name : String}
    (listed : [Schema.parentColumn, Schema.childColumn, Schema.relationColumn][i]? = some name) :
    (registryOf vs h).cell (entryRow vs e) name =
      ([e.parent, e.child, e.relation][i]?.map (textCell vs)).join := by
  rw [StoredTable.cell, registry_position vs h listed, Option.bind_some, Cells.cell, entryRow,
    List.getElem?_map]

variable {vs}

theorem textCell_isSome (ideal : vs.Ideal) (s : String) : (textCell vs s).isSome = true := by
  obtain ⟨v, read, _⟩ := ideal.texts s
  simp [textCell, textType, read]

theorem textCell_toText (ideal : vs.Ideal) (s : String) :
    (textCell vs s).map (Cell.toText vs) = some s := by
  obtain ⟨v, read, back⟩ := ideal.texts s
  simp [textCell, textType, read, Cell.toText, back]

theorem textCell_same (ideal : vs.Ideal) (s s' : String) {x : Cell V} (hx : textCell vs s' = some x) :
    (textCell vs s).any (·.same vs x) = decide (s = s') := by
  obtain ⟨v, read, _⟩ := ideal.texts s
  obtain ⟨v', read', _⟩ := ideal.texts s'
  have eq : x = .value v' := by simpa [textCell, textType, read'] using hx.symm
  subst eq
  simp only [textCell, textType, read, Option.map_some, Option.any_some, Cell.same]
  rw [Bool.eq_iff_iff, decide_eq_true_eq]
  constructor
  · exact ideal.sameTexts s s' v v' read read'
  · rintro rfl
    rw [read] at read'
    cases read'
    exact ideal.equivalence.refl v

theorem sameOrNull_text (ideal : vs.Ideal) (s s' : String) :
    Cell.sameOrNull vs (textCell vs s) (textCell vs s') = decide (s = s') := by
  obtain ⟨x, hx⟩ := Option.isSome_iff_exists.1 (textCell_isSome ideal s)
  obtain ⟨y, hy⟩ := Option.isSome_iff_exists.1 (textCell_isSome ideal s')
  rw [← textCell_same ideal s s' hy, hx, hy]
  rfl

/-! ### Registering -/

theorem registry_testable (ideal : vs.Ideal) (h : Hierarchy) (parent child : String) :
    ∀ c ∈ (Registry.selectRelation parent child).conditions, Testable vs (registryOf vs h) c := by
  intro c hc
  rcases List.mem_pair.1 hc with rfl | rfl
  · refine ⟨_, registry_column vs h _ (by simp), ?_⟩
    simpa [Cell.ofOperand?, registryColumn, textCell] using textCell_isSome ideal parent
  · refine ⟨_, registry_column vs h _ (by simp), ?_⟩
    simpa [Cell.ofOperand?, registryColumn, textCell] using textCell_isSome ideal child

theorem registry_holds (ideal : vs.Ideal) (h : Hierarchy) (e : HierarchyEntry) (parent child : String) :
    (Registry.selectRelation parent child).conditions.all (holds vs (registryOf vs h) (entryRow vs e)) =
      decide (e.parent = parent ∧ e.child = child) := by
  obtain ⟨x, hx⟩ := Option.isSome_iff_exists.1 (textCell_isSome ideal parent)
  obtain ⟨y, hy⟩ := Option.isSome_iff_exists.1 (textCell_isSome ideal child)
  have first := registry_cell vs h e (i := 0) rfl
  have second := registry_cell vs h e (i := 1) rfl
  have read (s : String) (c : Column) (text : c.type = textType vs) :
      Cell.ofOperand? vs c.type { param := .text s } = textCell vs s := by
    rw [text]
    rfl
  simp only [Registry.selectRelation, List.all_cons, List.all_nil, Bool.and_true, holds,
    registry_column vs h Schema.parentColumn (by simp),
    registry_column vs h Schema.childColumn (by simp), Option.bind_some,
    read _ (registryColumn vs _) rfl, hx, hy, Option.any_some, first, second]
  have p := textCell_same ideal e.parent parent hx
  have c := textCell_same ideal e.child child hy
  simp only [List.getElem?_cons_zero, List.getElem?_cons_succ, Option.map_some, Option.join_some, p, c,
    Bool.decide_and]

theorem registry_given (ideal : vs.Ideal) (e : HierarchyEntry) :
    ∀ x ∈ [(Schema.parentColumn, e.parent), (Schema.childColumn, e.child), (Schema.relationColumn, e.relation)],
      Readable vs (Registry.insertEntry e).values (registryColumn vs x.1) ∧
        givenCell vs (Registry.insertEntry e).values (registryColumn vs x.1) = textCell vs x.2 := by
  have found : ∀ x ∈ [(Schema.parentColumn, e.parent), (Schema.childColumn, e.child),
      (Schema.relationColumn, e.relation)], (Registry.insertEntry e).values.find?
        (sameName ·.1 (registryColumn vs x.1).name) = some (x.1, { param := .text x.2 }) := by
    have parentChild : sameName Schema.parentColumn Schema.childColumn = false := by decide
    have parentRelation : sameName Schema.parentColumn Schema.relationColumn = false := by decide
    have childRelation : sameName Schema.childColumn Schema.relationColumn = false := by decide
    simp [Registry.insertEntry, registryColumn, List.find?_cons, parentChild, parentRelation, childRelation]
  intro x hx
  have read : Cell.ofOperand? vs (textType vs) { param := .text x.2 } = textCell vs x.2 := rfl
  constructor
  · intro v hv
    rw [found x hx] at hv
    cases hv
    exact read ▸ textCell_isSome ideal x.2
  · rw [givenCell, found x hx]
    exact read

theorem registry_rowOf (ideal : vs.Ideal) (h : Hierarchy) (e : HierarchyEntry) (db : Database V) :
    db.rowOf vs (Registry.insertEntry e) (registryOf vs h) = .ok (entryRow vs e, db.sequences) := by
  have known : (Registry.insertEntry e).values.any (fun v => ((registryOf vs h).column? v.1).isNone) =
      false := by
    simp [Registry.insertEntry, registry_column vs h]
  have given := registry_given ideal e
  have columns : ∀ c ∈ (registryOf vs h).columns, ∃ x ∈ [(Schema.parentColumn, e.parent),
      (Schema.childColumn, e.child), (Schema.relationColumn, e.relation)], c = registryColumn vs x.1 := by
    simp [registryOf_columns]
  have readable : ∀ c ∈ (registryOf vs h).columns, Readable vs (Registry.insertEntry e).values c := by
    intro c hc
    obtain ⟨x, hx, rfl⟩ := columns c hc
    exact (given x hx).1
  have noDefault : ∀ c ∈ (registryOf vs h).columns, c.default? = none := by
    intro c hc
    obtain ⟨x, hx, rfl⟩ := columns c hc
    rfl
  have row := newRow_plain vs readable noDefault db.sequences
  have cells : (registryOf vs h).columns.map (givenCell vs (Registry.insertEntry e).values) =
      entryRow vs e := by
    simp only [List.forall_mem_cons] at given
    obtain ⟨parent, child, relation, _⟩ := given
    simp only [registryOf_columns, List.map_cons, List.map_nil, parent.2, child.2, relation.2, entryRow]
  rw [rowOf, known]
  simp only [Bool.or_false]
  rw [if_neg (by simp [Registry.insertEntry]), row, cells]

theorem registry_keepsKeys (ideal : vs.Ideal) (h : Hierarchy) (e : HierarchyEntry) :
    keepsKeys vs (registryOf vs h) (entryRow vs e) = !h.has e.parent e.child := by
  have key : (registryOf vs h).keyColumns.filterMap (registryOf vs h).position? = [0, 1] := by
    have columns : (registryOf vs h).keyColumns = [Schema.parentColumn, Schema.childColumn] := rfl
    simp [columns, registry_position vs h (i := 0) rfl, registry_position vs h (i := 1) rfl]
  have filled : ((registryOf vs h).columns.all fun c =>
      !(c.notNull || c.primaryKey) || ((registryOf vs h).cell (entryRow vs e) c.name).isSome) = true := by
    have parent := registry_cell vs h e (i := 0) rfl
    have child := registry_cell vs h e (i := 1) rfl
    have relation := registry_cell vs h e (i := 2) rfl
    simp [registryOf_columns, registryColumn, parent, child, relation, textCell_isSome ideal]
  have new : ((registryOf vs h).rows.all fun r => !([0, 1].all fun k =>
      Cell.sameOrNull vs (r.cell k) ((entryRow vs e).cell k))) = !h.has e.parent e.child := by
    rw [Bool.eq_iff_iff]
    simp only [registryOf, List.all_map, Function.comp_def, entryRow, Cells.cell, List.all_cons, List.all_nil,
      List.map_cons, List.getElem?_cons_zero, List.getElem?_cons_succ, Option.join_some,
      sameOrNull_text ideal, Bool.and_true, List.all_eq_true, Bool.not_eq_true', Bool.and_eq_false_iff,
      decide_eq_false_iff_not]
    rw [Bool.eq_false_iff, ne_eq, Hierarchy.has_iff]
    simp only [not_exists, not_and, ← imp_iff_not_or]
  unfold keepsKeys
  rw [key]
  dsimp only
  rw [filled, new]
  simp [entryRow, Cells.cell, textCell_isSome ideal]

theorem registry_keepsReferences (db : Database V) (h : Hierarchy) (e : HierarchyEntry) :
    db.keepsReferences vs (registryOf vs h) (entryRow vs e) = true := by
  simp [keepsReferences, registryOf_columns, registryColumn]

theorem registry_matching (ideal : vs.Ideal) (h : Hierarchy) (parent child : String) :
    matching vs (registryOf vs h) (Registry.selectRelation parent child).conditions =
      (h.entries.filter fun e => e.parent = parent ∧ e.child = child).map (entryRow vs) := by
  simp only [matching, registryOf, List.filter_map, Function.comp_def]
  congr 2
  funext e
  exact registry_holds ideal h e parent child

theorem entryOfRow_project (ideal : vs.Ideal) (h : Hierarchy) (e : HierarchyEntry) :
    Registry.entryOfRow (project vs (registryOf vs h) (entryRow vs e) Registry.selectAll.selection) = .ok e := by
  have parent := registry_cell vs h e (i := 0) rfl
  have child := registry_cell vs h e (i := 1) rfl
  have relation := registry_cell vs h e (i := 2) rfl
  simp [project, Registry.selectAll, parent, child, relation, textCell_toText ideal, Registry.entryOfRow]

theorem enter_table? {db : Database V} {h : Hierarchy}
    (found : db.table? Schema.registryTable = some (registryOf vs h)) (e : HierarchyEntry) :
    (enter vs h e db).table? Schema.registryTable = some (registryOf vs (h.insert e)) := by
  cases old : h.has e.parent e.child with
  | true => simpa [enter, old, Hierarchy.insert_entries_of_has old] using found
  | false =>
    have name : sameName (stored vs Schema.registry).name Schema.registryTable = true := sameName_self _
    simp [enter, old, table?_addRow, found, name, StoredTable.add, registryOf, Hierarchy.insert_entries_of_new old]

theorem enterAll_table? (es : List HierarchyEntry) {db : Database V} {h : Hierarchy}
    (found : db.table? Schema.registryTable = some (registryOf vs h)) :
    (enterAll vs h es db).table? Schema.registryTable = some (registryOf vs (es.foldl Hierarchy.insert h)) := by
  induction es generalizing db h with
  | nil => exact found
  | cons e rest ih => exact ih (enter_table? found e)

theorem withHierarchy_addRow {others : List (StoredTable V)} (sequences : List (String × Int))
    (apart : ∀ t ∈ others, sameName t.name Schema.registryTable = false) {h : Hierarchy} {e : HierarchyEntry}
    (new : h.has e.parent e.child = false) :
    (withHierarchy vs others sequences h).addRow Schema.registryTable (entryRow vs e) =
      withHierarchy vs others sequences (h.insert e) := by
  have others_same : others.map (fun t => if sameName t.name Schema.registryTable then
      { t with rows := t.rows ++ [entryRow vs e] } else t) = others := by
    refine (List.map_congr_left fun t ht => ?_).trans (List.map_id others)
    rw [apart t ht]
    rfl
  have front : (if sameName (registryOf vs h).name Schema.registryTable then
      { registryOf vs h with rows := (registryOf vs h).rows ++ [entryRow vs e] } else registryOf vs h) =
      registryOf vs (h.insert e) := by
    rw [registryOf, registryOf, Hierarchy.insert_entries_of_new new, List.map_append]
    exact if_pos (sameName_self Schema.registryTable)
  simp only [addRow, withHierarchy, List.map_cons, others_same, front]

/-- Where entering one entry leads from the database of a hierarchy to that of the next, so does entering many. -/
theorem enterAll_eq {holding : Hierarchy → Database V}
    (added : ∀ h e, h.has e.parent e.child = false →
      (holding h).addRow Schema.registryTable (entryRow vs e) = holding (h.insert e))
    (es : List HierarchyEntry) (h : Hierarchy) :
    enterAll vs h es (holding h) = holding (es.foldl Hierarchy.insert h) := by
  induction es generalizing h with
  | nil => rfl
  | cons e rest ih =>
    have first : enter vs h e (holding h) = holding (h.insert e) := by
      cases old : h.has e.parent e.child with
      | true => simp [enter, old, Hierarchy.insert_entries_of_has old]
      | false => simp [enter, old, added h e old]
    rw [enterAll, first, ih, List.foldl_cons]

section Register

variable (ideal : vs.Ideal) {db : Database V} {h : Hierarchy}
  (found : db.table? Schema.registryTable = some (registryOf vs h))
include ideal found

theorem selectRelation_ok (parent child : String) : ∃ rows : List Row,
    db.select vs (Registry.selectRelation parent child) = .ok rows ∧ (rows = [] ↔ h.has parent child = false) := by
  have selected : checkSelection (registryOf vs h) (Registry.selectRelation parent child) = .ok () := by
    refine checkSelection_ok (fun names eq n hn => ?_) (by simp [Registry.selectRelation])
    cases eq
    rw [registry_column vs h n (by simp_all)]
    rfl
  obtain ⟨rows, perm, eq⟩ := select_all vs (q := Registry.selectRelation parent child) found selected
    (registry_testable ideal h parent child) rfl
  rw [registry_matching ideal] at perm
  refine ⟨_, eq, ?_⟩
  rw [List.map_eq_nil_iff, Bool.eq_false_iff, ne_eq, Hierarchy.has_iff]
  constructor
  · rintro rfl ⟨e, mem, same⟩
    have found := perm.mem_iff.2 (List.mem_map_of_mem (List.mem_filter.2 ⟨mem, decide_eq_true same⟩))
    cases found
  · intro none
    have empty : h.entries.filter (fun e => e.parent = parent ∧ e.child = child) = [] := by
      rw [List.filter_eq_nil_iff]
      exact fun e mem same => none ⟨e, mem, of_decide_eq_true same⟩
    rw [empty] at perm
    exact perm.eq_nil

/-- An entry is inserted if its pair is new. Otherwise the key refuses it, and nothing is changed. -/
theorem insertEntry_eq (enforce : Bool) (e : HierarchyEntry) :
    db.insert vs enforce (Registry.insertEntry e) =
      (if h.has e.parent e.child then .error (.failed .constraint none) else .ok (), enter vs h e db) := by
  have table : (Registry.insertEntry e).table = Schema.registryTable := rfl
  have name : (registryOf vs h).name = Schema.registryTable := rfl
  unfold insert
  rw [table, found]
  simp only [insertInto, registry_rowOf ideal, registry_keepsKeys ideal, registry_keepsReferences, Bool.or_true,
    Bool.and_true, enter, name]
  cases h.has e.parent e.child <;> rfl

/-- Registering an entry enters it into the hierarchy. -/
theorem register_eq (enforce : Bool) (e : HierarchyEntry) :
    Registry.register (store vs enforce) e db = (.ok (!h.has e.parent e.child), enter vs h e db) := by
  obtain ⟨rows, eq, empty⟩ := selectRelation_ok ideal found e.parent e.child
  have inserted := insertEntry_eq ideal found enforce e
  unfold Registry.register
  simp only [store, answer, eq]
  cases known : h.has e.parent e.child with
  | true =>
    rw [enter, known, if_pos rfl]
    cases rows with
    | nil => rw [empty.1 rfl] at known; cases known
    | cons row rows => rfl
  | false =>
    rw [empty.2 known]
    rw [known] at inserted
    simp only [inserted]
    rfl

/-- The store answers to registrations as a hierarchy does to entries. -/
theorem register_steps (enforce : Bool) (es : List HierarchyEntry) :
    steps (Registry.register (store vs enforce)) es db =
      ((steps Hierarchy.enter es h).1.map .ok, enterAll vs h es db) := by
  induction es generalizing db h with
  | nil => rfl
  | cons e rest ih =>
    have later := ih (enter_table? found e)
    simp only [steps, register_eq ideal found enforce e, later]
    rfl

theorem applied_registration (enforce : Bool) (e : HierarchyEntry) (report : ApplyReport) :
    (store vs enforce).applyStatement report db (.register e) =
      (if h.has e.parent e.child then { report with registrySkipped := report.registrySkipped + 1 }
        else { report with registered := report.registered + 1 }, enter vs h e db) := by
  rw [Store.applyStatement, register_eq ideal found]
  cases h.has e.parent e.child <;> rfl

theorem applied_registrations (enforce : Bool) (es : List HierarchyEntry) (report : ApplyReport) :
    (es.map Statement.register).foldl
      (fun (p : ApplyReport × Database V) stmt => (store vs enforce).applyStatement p.1 p.2 stmt) (report, db) =
      ({ report with
          registered := report.registered + (steps Hierarchy.enter es h).1.count true
          registrySkipped := report.registrySkipped + (steps Hierarchy.enter es h).1.count false },
        enterAll vs h es db) := by
  induction es generalizing db h report with
  | nil => rfl
  | cons e rest ih =>
    rw [List.map_cons, List.foldl_cons, applied_registration ideal found, ih (enter_table? found e)]
    cases known : h.has e.parent e.child with
    | true => simp [steps, Hierarchy.enter, known, enterAll, Nat.add_assoc, Nat.add_comm 1]
    | false => simp [steps, Hierarchy.enter, known, enterAll, Nat.add_assoc, Nat.add_comm 1]

/-- Whatever is applied, the registry has the entries that are registered on the way. -/
theorem applied_registry (enforce : Bool) (stmts : List Statement) :
    ((store vs enforce).apply stmts db).2.table? Schema.registryTable =
      some (registryOf vs ((stmts.filterMap (·.registration?)).foldl Hierarchy.insert h)) := by
  have all : ∀ report, (stmts.foldl (fun (p : ApplyReport × Database V) stmt =>
      (store vs enforce).applyStatement p.1 p.2 stmt) (report, db)).2.table? Schema.registryTable =
        some (registryOf vs ((stmts.filterMap (·.registration?)).foldl Hierarchy.insert h)) := by
    induction stmts generalizing db h with
    | nil => exact fun _ => found
    | cons stmt rest ih =>
      intro report
      cases stmt with
      | create t =>
        have kept : ((store vs enforce).applyStatement report db (.create t)).2.table? Schema.registryTable =
            some (registryOf vs h) := by
          rw [Store.applyStatement_create]
          exact create_table? vs found t
        exact ih kept _
      | register e =>
        rw [List.foldl_cons, applied_registration ideal found]
        exact ih (enter_table? found e) _
  exact all {}

/-- Reading the table gives the hierarchy, its entries in the order of their pairs. -/
theorem load_ok (enforce : Bool) : ∃ g : Hierarchy, g.entries.Perm h.entries ∧
    Registry.load (store vs enforce) db = (.ok g, db) := by
  have selected : checkSelection (registryOf vs h) Registry.selectAll = .ok () := by
    refine checkSelection_ok (fun names eq n hn => ?_) fun n hn => ?_
    · cases eq
      rw [registry_column vs h n hn]
      rfl
    · rw [registry_column vs h n (List.mem_of_mem_take (i := 2) hn)]
      rfl
  obtain ⟨rows, perm, eq⟩ := select_all vs (q := Registry.selectAll) found selected (by simp [Registry.selectAll]) rfl
  have all : matching vs (registryOf vs h) Registry.selectAll.conditions = h.entries.map (entryRow vs) := by
    simp [matching, Registry.selectAll, registryOf]
  rw [all] at perm
  obtain ⟨entries, rfl, order⟩ := (congrFun₂ (List.eq_map_comp_perm (entryRow vs)) rows h.entries).mpr perm
  have read : (entries.map (entryRow vs) |>.map (project vs (registryOf vs h) · Registry.selectAll.selection)).mapM
      Registry.entryOfRow = .ok entries := by
    rw [mapM_eq_ok, List.map_map, List.forall₂_map_left_iff, List.forall₂_same]
    exact fun e _ => entryOfRow_project ideal h e
  have distinct : (entries.map HierarchyEntry.pair).Nodup := (order.map HierarchyEntry.pair).nodup_iff.2 h.distinct
  refine ⟨.ofEntries entries, (Hierarchy.ofEntries_of_distinct distinct).symm ▸ order, ?_⟩
  unfold Registry.load
  simp only [store, answer, eq, read]
  rfl

end Register

end Database

end TreeStore
