import TreeStore.Proofs.Load.Rejection
import TreeStore.Proofs.Load.Twins
import TreeStore.Proofs.Sql.Requests

/-! The values of attributes are bound. Of two trees that differ in values at most the loads go on in lockstep, as long
as the stores answer alike: they make the same calls with the same text, and only the parameters differ, by the values
of the nodes. -/

namespace TreeStore

open Loader Sql

variable {σ τ : Type}

/-! ### Corresponding exchanges -/

def Tree.Facing (t u : Tree) (l l' : Label) : Prop :=
  ∃ x x', (x, x') ∈ t.trails.zip u.trails ∧ x.node = l ∧ x'.node = l'

theorem Tree.trails_facing {t u : Tree} (twin : t.Twin u) :
    List.Forall₂ (fun x x' => x.Twin x' ∧ t.Facing u x.node x'.node) t.trails u.trails := by
  obtain ⟨level, twins⟩ := List.forall₂_iff_zip.1 (trails_twin twin)
  exact List.forall₂_iff_zip.2 ⟨level, fun mem => ⟨twins mem, _, _, mem, rfl, rfl⟩⟩

/-- Corresponding exchanges of loads of twin trees: a question for columns or a request with ids, which is the same
for both, or the query or the insertion for a node and for its twin. -/
inductive Corresponds (h : Hierarchy) (catalog : ColumnCache) (nodes : Label → Label → Prop) :
    Exchange → Exchange → Prop
  | columnsOf {table : String} {reply : Reply} :
      Corresponds h catalog nodes ⟨.columnsOf table, reply⟩ ⟨.columnsOf table, reply⟩
  | ids {r : Request} {reply : Reply} (plain : r.Plain) (legible : r.Legible)
      (ids : ∀ p ∈ r.params, ∃ n, p = .int n) :
      Corresponds h catalog nodes ⟨r, reply⟩ ⟨r, reply⟩
  | finding {l l' : Label} {columns : List CatalogColumn} {reply : Reply} (twins : nodes l l') (twin : l.Twin l')
      (known : catalog.get? (Text.lower l.type) = some columns)
      (plain : l.PlainOn (attributeColumns h l.type columns)) :
      Corresponds h catalog nodes ⟨l.finding (attributeColumns h l.type columns), reply⟩
        ⟨l'.finding (attributeColumns h l.type columns), reply⟩
  | insertion {l l' : Label} {columns : List CatalogColumn} {reply : Reply} (twins : nodes l l') (twin : l.Twin l')
      (known : catalog.get? (Text.lower l.type) = some columns)
      (plain : l.PlainOn (attributeColumns h l.type columns)) :
      Corresponds h catalog nodes ⟨l.insertion (attributeColumns h l.type columns), reply⟩
        ⟨l'.insertion (attributeColumns h l.type columns), reply⟩

namespace Loader

variable {A : Store σ} {B : Store τ} {catalog : ColumnCache} {nodes : Label → Label → Prop}

/-! ### Requests with ids -/

section Ids

variable (path : NodePath) (h : Hierarchy) (settings : LoadSettings)

def insertIfNone (store : Store σ) (table : String) (ids : List (String × Int)) (rows : List Row) : LoadM σ Bool :=
  if rows.isEmpty then do
    ask store path (.insert ⟨table, idOperands ids⟩)
    return true
  else return false

theorem insertIfNone_goes (store : Store σ) (table : String) (ids : List (String × Int)) (rows : List Row) :
    GoesOn (insertIfNone path store.overheard table ids rows) := by
  unfold insertIfNone
  split
  · exact (GoesOn.ask store path _).bind fun _ => .pure _
  · exact .pure _

theorem idOperands_untyped {ids : List (String × Int)} : ∀ v ∈ idOperands ids, v.2.type? = none := by
  intro v mem
  obtain ⟨w, _, rfl⟩ := List.mem_map.1 mem
  rfl

theorem idOperands_plain {ids : List (String × Int)} : ∀ v ∈ idOperands ids, v.2.Plain :=
  fun v mem => .of_untyped (idOperands_untyped v mem)

theorem idOperands_balanced {ids : List (String × Int)} : ∀ v ∈ idOperands ids, v.2.Balanced :=
  fun v mem => .of_untyped (idOperands_untyped v mem)

theorem idOperands_ids {ids : List (String × Int)} : ∀ v ∈ idOperands ids, ∃ n, v.2.param = .int n := by
  intro v mem
  obtain ⟨w, _, rfl⟩ := List.mem_map.1 mem
  exact ⟨w.2, rfl⟩

def idQuery (table : String) (ids : List (String × Int)) (nulls : List String) : Select :=
  { selection := .one, table,
    conditions := (idOperands ids).map (fun v => .equals v.1 v.2) ++ nulls.map .isNull, firstOnly := true }

theorem idQuery_operands {table : String} {ids : List (String × Int)} {nulls : List String} {c : Condition}
    (mem : c ∈ (idQuery table ids nulls).conditions) {o : Operand} (own : c.operand? = some o) :
    ∃ v ∈ idOperands ids, v.2 = o := by
  rcases List.mem_append.1 mem with mem | mem
  · obtain ⟨v, hv, rfl⟩ := List.mem_map.1 mem
    exact ⟨v, hv, Option.some.inj own⟩
  · obtain ⟨name, _, rfl⟩ := List.mem_map.1 mem
    cases own

theorem insertUnlessPresent_lockstep (table : String) (ids : List (String × Int)) (nulls : List String) :
    Lockstep catalog (Corresponds h catalog nodes) Eq (insertUnlessPresent A.overheard path table ids nulls)
      (insertUnlessPresent B.overheard path table ids nulls) := by
  have asked : ∀ reply, Corresponds h catalog nodes ⟨.select (idQuery table ids nulls), reply⟩
      ⟨.select (idQuery table ids nulls), reply⟩ := by
    refine fun reply => .ids (.select fun c mem o own => ?_) (.select nofun fun c mem o own => ?_) fun p mem => ?_
    · obtain ⟨v, hv, rfl⟩ := idQuery_operands mem own
      exact idOperands_plain v hv
    · obtain ⟨v, hv, rfl⟩ := idQuery_operands mem own
      exact idOperands_balanced v hv
    · obtain ⟨c, hc, own⟩ := List.mem_filterMap.1 mem
      cases c with
      | equals column value =>
        cases own
        obtain ⟨v, hv, rfl⟩ := idQuery_operands hc rfl
        exact idOperands_ids v hv
      | isNull column => cases own
  have inserted : ∀ reply, Corresponds h catalog nodes ⟨.insert ⟨table, idOperands ids⟩, reply⟩
      ⟨.insert ⟨table, idOperands ids⟩, reply⟩ := by
    refine fun reply => .ids (.insert idOperands_plain) (.insert idOperands_balanced) fun p mem => ?_
    obtain ⟨v, hv, rfl⟩ := List.mem_map.1 mem
    exact idOperands_ids v hv
  refine Lockstep.bind (.select path asked) (insertIfNone_goes path A table ids) (insertIfNone_goes path B table ids) ?_
  rintro rows _ rfl
  split
  · exact Lockstep.bind (.ask_same path inserted) (fun _ => .pure _) (fun _ => .pure _) fun _ _ _ => .pure rfl
  · exact .pure rfl

theorem surround_lockstep (type : String) (context : Context) :
    Lockstep catalog (Corresponds h catalog nodes) (fun _ _ => True) (surround A.overheard h path type context)
      (surround B.overheard h path type context) := by
  have counts : ∀ {ρ : Type} (new : Bool), GoesOn (σ := ρ) (if new = true then
      count fun r => { r with relationshipsInserted := r.relationshipsInserted + 1 }
    else count fun r => { r with relationshipsSkipped := r.relationshipsSkipped + 1 }) := by
    intro ρ new
    split
    · exact .count _
    · exact .count _
  have rest : ∀ {ρ : Type} (store : Store ρ) ids nulls, GoesOn
      (insertUnlessPresent store.overheard path (Schema.relationshipsTable type) ids nulls) := fun store ids nulls =>
    .of_couples fun p₀ => (coupling_later store p₀).insertUnlessPresent path _ ids nulls
  unfold surround
  split
  · unfold recordRelationship
    refine Lockstep.bind (.columnsOf path _ fun _ => .columnsOf) (fun _ => (rest A _ _).bind counts)
      (fun _ => (rest B _ _).bind counts) ?_
    rintro columns _ ⟨rfl, _⟩
    refine Lockstep.bind (insertUnlessPresent_lockstep path h _ _ _) counts counts ?_
    rintro new _ rfl
    split
    · exact .count _
    · exact .count _
  · exact .pure trivial

theorem pair_lockstep (parent : Option (String × Int)) (child : String × Int) :
    Lockstep catalog (Corresponds h catalog nodes) (fun _ _ => True)
      (pair A.overheard h settings path parent child) (pair B.overheard h settings path parent child) := by
  unfold pair
  cases parent with
  | none => exact .pure trivial
  | some parent =>
    cases settings.recordJunctions with
    | false => exact .pure trivial
    | true =>
      cases registered : h.relation? parent.1 child.1 with
      | none =>
        unfold recordJunction
        simp only [if_true, registered]
        exact .pure trivial
      | some relation =>
        simp only [if_true, recordJunction_eq A.overheard h path registered,
          recordJunction_eq B.overheard h path registered]
        have goes : ∀ {ρ : Type} (store : Store ρ) ids, GoesOn (do
            let new ← insertUnlessPresent store.overheard path (Schema.junctionTable parent.1 relation) ids []
            Loader.count (noteJunction new)) := fun store ids =>
          (GoesOn.of_couples fun p₀ => (coupling_later store p₀).insertUnlessPresent path _ ids []).bind fun _ =>
            .count _
        refine Lockstep.bind (.columnsOf path _ fun _ => .columnsOf)
          (fun _ => (GoesOn.lift _).bind fun _ => goes A _) (fun _ => (GoesOn.lift _).bind fun _ => goes B _) ?_
        rintro columns _ ⟨rfl, _⟩
        refine Lockstep.bind (.lift (.refl _)) (fun _ => goes A _) (fun _ => goes B _) ?_
        rintro fit _ rfl
        refine Lockstep.bind (insertUnlessPresent_lockstep path h _ _ _) (fun _ => .count _) (fun _ => .count _) ?_
        rintro new _ rfl
        exact .count _

end Ids

/-! ### Nodes -/

section Nodes

variable (path : NodePath) (h : Hierarchy) (settings : LoadSettings)

theorem nodeValues_cons (attributes : TextMap String) (c : CatalogColumn) (rest : List CatalogColumn) :
    nodeValues attributes (c :: rest) =
      (c.name, (valueFor? attributes c).map (castOperand · c.type)) :: nodeValues attributes rest := rfl

/-- The values of twin nodes are taken for the same columns, or refused alike. -/
theorem columnValues_twin {l l' : Label} (twin : l.Twin l') (columns : List CatalogColumn) :
    Agrees (fun values values' => values = nodeValues l.attributes columns ∧
        values' = nodeValues l'.attributes columns ∧ l.PlainOn columns)
      (columnValues path l.attributes columns) (columnValues path l'.attributes columns) := by
  induction columns with
  | nil => exact .ok ⟨rfl, rfl, fun _ mem => nomatch mem⟩
  | cons c rest ih =>
    rw [columnValues, columnValues, nodeValues_cons, nodeValues_cons, Label.PlainOn, List.forall_mem_cons]
    rcases twin.value c with ⟨none, none'⟩ | ⟨v, v', given, given'⟩
    · rw [none, none']
      refine ih.then fun values values' => ?_
      rintro ⟨rfl, rfl, plain⟩
      exact .ok ⟨rfl, rfl, fun given => Bool.noConfusion given, plain⟩
    · rw [given, given']
      dsimp only
      split
      · next type =>
        refine ih.then fun values values' => ?_
        rintro ⟨rfl, rfl, plain⟩
        exact .ok ⟨rfl, rfl, fun _ => type, plain⟩
      · exact .error _

theorem operandsFor_twin {l l' : Label} (twin : l.Twin l') (columns : List CatalogColumn) :
    Agrees (fun values values' => values = nodeValues l.attributes (attributeColumns h l.type columns) ∧
        values' = nodeValues l'.attributes (attributeColumns h l.type columns) ∧
        l.PlainOn (attributeColumns h l.type columns))
      (operandsFor h path l.type l.attributes columns) (operandsFor h path l'.type l'.attributes columns) := by
  unfold operandsFor
  rw [← twin.type, ← twin.keys]
  split
  · exact .error _
  · split
    · exact .error _
    · exact columnValues_twin path twin _

def takeOrInsert (store : Store σ) (type : String) (values : List (String × Option Operand)) : List Row → LoadM σ Int
  | row :: _ =>
    match idOfRow type row with
    | .error error => throw (.store path error)
    | .ok id => do
      Loader.count fun r => { r with rowsReused := r.rowsReused + 1 }
      return id
  | [] => do
    let id ← ask store path (.insertReturning ⟨type, givenValues values⟩)
    Loader.count fun r => { r with rowsInserted := r.rowsInserted + 1 }
    return id

theorem findOrInsert_eq (store : Store σ) (type : String) (values : List (String × Option Operand)) :
    findOrInsert store path type values =
      ask store path (.select (selectId type values)) >>= takeOrInsert path store type values := by
  unfold findOrInsert
  congr 1
  funext rows
  cases rows <;> rfl

theorem takeOrInsert_goes (store : Store σ) (type : String) (values : List (String × Option Operand))
    (rows : List Row) : GoesOn (takeOrInsert path store.overheard type values rows) := by
  unfold takeOrInsert
  split
  · split
    · exact .fail _
    · exact (GoesOn.count _).bind fun _ => .pure _
  · exact (GoesOn.ask store path _).bind fun _ => (GoesOn.count _).bind fun _ => .pure _

theorem findOrInsert_lockstep {l l' : Label} (twins : nodes l l') (twin : l.Twin l') {columns : List CatalogColumn}
    (known : catalog.get? (Text.lower l.type) = some columns) (plain : l.PlainOn (attributeColumns h l.type columns)) :
    Lockstep catalog (Corresponds h catalog nodes) Eq
      (findOrInsert A.overheard path l.type (nodeValues l.attributes (attributeColumns h l.type columns)))
      (findOrInsert B.overheard path l'.type (nodeValues l'.attributes (attributeColumns h l.type columns))) := by
  rw [findOrInsert_eq, findOrInsert_eq]
  refine Lockstep.bind (.select path fun _ => .finding twins twin known plain) (takeOrInsert_goes path A _ _)
    (takeOrInsert_goes path B _ _) ?_
  rintro rows _ rfl
  have added : Lockstep catalog (Corresponds h catalog nodes) Eq
      (takeOrInsert path A.overheard l.type (nodeValues l.attributes (attributeColumns h l.type columns)) [])
      (takeOrInsert path B.overheard l'.type (nodeValues l'.attributes (attributeColumns h l.type columns)) []) := by
    refine Lockstep.bind (.insertReturning path fun _ => .insertion twins twin known plain)
      (fun _ => (GoesOn.count _).bind fun _ => .pure _) (fun _ => (GoesOn.count _).bind fun _ => .pure _) ?_
    rintro id _ rfl
    exact Lockstep.bind (.count _) (fun _ => .pure _) (fun _ => .pure _) fun _ _ _ => .pure rfl
  cases rows with
  | nil => exact added
  | cons row rest =>
    unfold takeOrInsert
    rw [← twin.type]
    dsimp only
    split
    · exact .fail _
    · exact Lockstep.bind (.count _) (fun _ => .pure _) (fun _ => .pure _) fun _ _ _ => .pure rfl

theorem upsert_lockstep {l l' : Label} (twins : nodes l l') (twin : l.Twin l') :
    Lockstep catalog (Corresponds h catalog nodes) Eq (upsert A.overheard h path l.type l.attributes)
      (upsert B.overheard h path l'.type l'.attributes) := by
  have goes : ∀ {ρ : Type} (store : Store ρ) (l : Label) columns, GoesOn (do
      let values ← operandsFor h path l.type l.attributes columns
      findOrInsert store.overheard path l.type values) := fun store l columns =>
    (GoesOn.lift _).bind fun values => .of_couples fun p₀ => (coupling_later store p₀).findOrInsert path l.type values
  obtain ⟨type, attributes⟩ := l
  obtain ⟨_, attributes'⟩ := l'
  obtain rfl : type = _ := twin.type
  rw [upsert_eq, upsert_eq]
  refine Lockstep.bind (.columnsOf path type fun _ => .columnsOf) (goes A ⟨type, attributes⟩)
    (goes B ⟨type, attributes'⟩) ?_
  rintro columns _ ⟨rfl, known⟩
  refine Lockstep.bind (.lift (operandsFor_twin path h twin columns))
    (fun values => .of_couples fun p₀ => (coupling_later A p₀).findOrInsert path type values)
    (fun values => .of_couples fun p₀ => (coupling_later B p₀).findOrInsert path type values) ?_
  rintro values values' ⟨rfl, rfl, plain⟩
  exact findOrInsert_lockstep path h twins twin known plain

theorem visitNode_lockstep {l l' : Label} (twins : nodes l l') (twin : l.Twin l') (parent : Option (String × Int))
    (context : Context) : Lockstep catalog (Corresponds h catalog nodes) Eq
      (visitNode A.overheard h settings path parent context l.type l.attributes)
      (visitNode B.overheard h settings path parent context l'.type l'.attributes) := by
  have empty := twin.isEmpty
  have taken : Lockstep catalog (Corresponds h catalog nodes) Eq (upsert A.overheard h path l.type l.attributes)
      (upsert B.overheard h path l'.type l'.attributes) := upsert_lockstep path h twins twin
  obtain ⟨type, attributes⟩ := l
  obtain ⟨_, attributes'⟩ := l'
  obtain rfl : type = _ := twin.type
  dsimp only at empty taken ⊢
  cases bare : attributes.isEmpty with
  | true =>
    rw [bare] at empty
    unfold visitNode
    rw [bare, ← empty]
    exact Lockstep.bind (.count _) (fun _ => .pure _) (fun _ => .pure _) fun _ _ _ => .pure rfl
  | false =>
    rw [bare] at empty
    rw [visitNode_bearing _ _ _ _ _ _ _ bare, visitNode_bearing _ _ _ _ _ _ _ empty.symm]
    have paired : ∀ {ρ : Type} (store : Store ρ) (id : Int), GoesOn (do
        pair store.overheard h settings path parent (type, id)
        return (some id, context.insert type id)) := fun store id =>
      (GoesOn.of_couples fun p₀ => (coupling_later store p₀).pair path h settings parent _).bind fun _ => .pure _
    have rest : ∀ {ρ : Type} (store : Store ρ) (id : Int), GoesOn (do
        surround store.overheard h path type (context.insert type id)
        pair store.overheard h settings path parent (type, id)
        return (some id, context.insert type id)) := fun store id =>
      (GoesOn.of_couples fun p₀ => (coupling_later store p₀).surround path h type _).bind fun _ => paired store id
    refine taken.bind (rest A) (rest B) ?_
    rintro id _ rfl
    refine Lockstep.bind (surround_lockstep path h _ _) (fun _ => paired A id) (fun _ => paired B id) fun _ _ _ => ?_
    exact Lockstep.bind (pair_lockstep path h settings parent _) (fun _ => .pure _) (fun _ => .pure _) fun _ _ _ =>
      .pure rfl

end Nodes

/-! ### Trees -/

section Trees

variable (h : Hierarchy) (settings : LoadSettings) {t u : Tree}

theorem walkNode_lockstep {x x' : Trail} (twin : x.Twin x') (twins : nodes x.node x'.node) (handed : List Handed) :
    Lockstep catalog (Corresponds h catalog nodes) Eq (walkNode A.overheard h settings handed x)
      (walkNode B.overheard h settings handed x') := by
  unfold walkNode
  rw [← twin.path, ← twin.above.length_eq, ← twin.node.type]
  dsimp only
  generalize handed.drop (handed.length - x.above.length) = above
  have visited : Lockstep catalog (Corresponds h catalog nodes) Eq
      (visitNode A.overheard h settings x.path (lowest above).1 (lowest above).2 x.node.type x.node.attributes)
      (visitNode B.overheard h settings x.path (lowest above).1 (lowest above).2 x'.node.type x'.node.attributes) :=
    visitNode_lockstep x.path h settings twins twin.node _ _
  rw [← twin.node.type] at visited
  refine visited.bind (fun _ => .pure _) (fun _ => .pure _) ?_
  rintro found _ rfl
  exact .pure rfl

theorem walkNode_goes (store : Store σ) (handed : List Handed) (x : Trail) :
    GoesOn (walkNode store.overheard h settings handed x) :=
  .of_couples fun p₀ => (coupling_later store p₀).walkNode h settings handed x

theorem loadWith_lockstep (twin : t.Twin u) :
    Lockstep catalog (Corresponds h catalog (t.Facing u)) Eq (loadWith A.overheard h settings t)
      (loadWith B.overheard h settings u) := by
  unfold loadWith
  rw [Tree.check_twin twin]
  cases u.check h settings.maxDepth with
  | error found => exact .fail _
  | ok =>
    have walk : ∀ {ρ : Type} (store : Store ρ) (t : Tree), GoesOn (do
        let _ ← t.trails.foldlM (walkNode store.overheard h settings) []
        return (← get).report) := fun store t =>
      (GoesOn.foldlM (walkNode_goes h settings store) _ _).bind fun _ => .report
    simp only [visit_walk, bind_assoc, pure_bind]
    refine Lockstep.bind (.count fun _ => {}) (fun _ => walk A t) (fun _ => walk B u) fun _ _ _ => ?_
    have walked : Lockstep catalog (Corresponds h catalog (t.Facing u)) Eq
        (t.trails.foldlM (walkNode A.overheard h settings) [])
        (u.trails.foldlM (walkNode B.overheard h settings) []) := by
      refine .foldlM (walkNode_goes h settings A) (walkNode_goes h settings B) ?_ (Tree.trails_facing twin) []
      rintro handed x x' ⟨twins, facing⟩
      exact walkNode_lockstep h settings twins facing handed
    exact walked.bind (fun _ => .report) (fun _ => .report) fun _ _ _ => .report

end Trees

end Loader

/-! ### Text -/

def Label.Binds (l : Label) (columns : List CatalogColumn) (r : Request) : Prop :=
  (r = l.finding columns ∨ r = l.insertion columns) ∧ r.params = l.bound columns

/-- The text of a request has a placeholder for every parameter, if it is more than the name of a table. -/
def Request.Marked (r : Request) : Prop := (∀ table, r ≠ .columnsOf table) → placeholders r.sql = r.params.length

/-- Two exchanges are the same but for parameters. These are ids, the same in both, or the values of a node and those
of the one at its place in the other tree. -/
structure SameText (h : Hierarchy) (catalog : ColumnCache) (t u : Tree) (c c' : Exchange) : Prop where
  reply : c.reply = c'.reply
  method : c.request.method = c'.request.method
  sql : c.request.sql = c'.request.sql
  marked : c.request.Marked ∧ c'.request.Marked
  params : (c.request = c'.request ∧ ∀ p ∈ c.request.params, ∃ n, p = .int n) ∨
    ∃ l l' columns, t.Facing u l l' ∧ catalog.get? (Text.lower l.type) = some columns ∧
      l.Binds (attributeColumns h l.type columns) c.request ∧ l'.Binds (attributeColumns h l.type columns) c'.request

theorem Corresponds.sameText {h : Hierarchy} {catalog : ColumnCache} {t u : Tree} {c c' : Exchange}
    (corresponds : Corresponds h catalog (t.Facing u) c c') : SameText h catalog t u c c' := by
  cases corresponds with
  | columnsOf => exact ⟨rfl, rfl, rfl, ⟨fun other => (other _ rfl).elim, fun other => (other _ rfl).elim⟩,
      .inl ⟨rfl, fun _ mem => nomatch mem⟩⟩
  | ids plain _ ids => exact ⟨rfl, rfl, rfl, ⟨fun _ => plain.placeholders, fun _ => plain.placeholders⟩, .inl ⟨rfl, ids⟩⟩
  | finding twins twin known plain =>
    exact ⟨rfl, rfl, twin.finding_sql _, ⟨fun _ => plain.finding.placeholders,
        fun _ => (plain.twin twin).finding.placeholders⟩,
      .inr ⟨_, _, _, twins, known, ⟨.inl rfl, Label.finding_params _ _⟩, .inl rfl, Label.finding_params _ _⟩⟩
  | insertion twins twin known plain =>
    exact ⟨rfl, rfl, twin.insertion_sql _, ⟨fun _ => plain.insertion.placeholders,
        fun _ => (plain.twin twin).insertion.placeholders⟩,
      .inr ⟨_, _, _, twins, known, ⟨.inr rfl, Label.insertion_params _ _⟩, .inr rfl, Label.insertion_params _ _⟩⟩

/-- Two loads come to the same, with the same columns in mind, and ask the same but for parameters. All the columns
that they have in mind were there at the start or have been told. -/
structure SameCalls (h : Hierarchy) (t u : Tree) (columns : ColumnCache)
    (x : Except LoadError LoadReport × ColumnCache × σ × List Exchange)
    (y : Except LoadError LoadReport × ColumnCache × τ × List Exchange) : Prop where
  result : x.1 = y.1
  remembered : x.2.1 = y.2.1
  calls : List.Forall₂ (SameText h x.2.1 t u) x.2.2.2 y.2.2.2
  told : ∀ key found, x.2.1.get? key = some found → columns.get? key = some found ∨
    ∃ table, Text.lower table = key ∧ ⟨.columnsOf table, .columns found⟩ ∈ x.2.2.2

namespace Loader

variable (A : Store σ) (B : Store τ) (settings : LoadSettings) {t u : Tree} (columns : ColumnCache) {s : σ} {s' : τ}

theorem Agrees.eq {α : Type} {x y : Except LoadError α} (agrees : Agrees Eq x y) : x = y := by
  cases agrees with
  | error error => rfl
  | ok same => exact congrArg _ same

/-- What loads of twin trees ask is the same but for parameters, whatever has been asked before. -/
theorem loadWith_sameCalls (twin : t.Twin u) (h : Hierarchy) {log log' : List Exchange}
    (before : ∀ catalog, List.Forall₂ (SameText h catalog t u) log log')
    (same : SameReplies (run (loadWith A.overheard h settings t) columns (s, log)).2.2.2
      (run (loadWith B.overheard h settings u) columns (s', log')).2.2.2) :
    SameCalls h t u columns (run (loadWith A.overheard h settings t) columns (s, log))
      (run (loadWith B.overheard h settings u) columns (s', log')) := by
  have lockstep : ∀ catalog, Lockstep catalog (Corresponds h catalog (t.Facing u)) Eq
      (loadWith A.overheard h settings t) (loadWith B.overheard h settings u) := fun _ =>
    loadWith_lockstep h settings twin
  -- Nothing is forgotten on the way, so the columns remembered in the end serve as the catalog.
  have later := (lockstep .empty).first { store := (s, log), columns }
  obtain ⟨d, heard⟩ := later.heard
  obtain ⟨d', heard'⟩ := ((lockstep .empty).second { store := (s', log'), columns }).heard
  have rest : SameReplies d d' := by
    refine SameReplies.right ?_ (before .empty).length_eq
    rw [heard, heard']
    exact same
  obtain ⟨agrees, step, calls⟩ := (lockstep _).both (p := { store := (s, log), columns })
    (q := { store := (s', log'), columns }) ⟨rfl, rfl⟩ heard.symm heard'.symm rest (.refl _)
  have whole : List.Forall₂
      (SameText h (outcome (loadWith A.overheard h settings t) { store := (s, log), columns }).2.columns t u)
      (outcome (loadWith A.overheard h settings t) { store := (s, log), columns }).2.store.2
      (outcome (loadWith B.overheard h settings u) { store := (s', log'), columns }).2.store.2 := by
    rw [← heard, ← heard']
    exact List.rel_append (before _) (calls.imp fun _ _ => Corresponds.sameText)
  exact ⟨agrees.eq, step.columns, whole, later.told⟩

def registryRead (s : σ) : Exchange :=
  ⟨.select Registry.selectAll, Request.reply _ (A.answer (.select Registry.selectAll) s).1⟩

theorem registry_overheard (log : List Exchange) : Registry.load A.overheard (s, log) =
    ((Registry.load A s).1, (Registry.load A s).2, log ++ [registryRead A s]) := by
  unfold Registry.load registryRead
  rcases answered : A.answer (.select Registry.selectAll) s with ⟨_ | _, _⟩ <;>
    simp only [Store.overheard, answered]

theorem registry_reads (same : (registryRead A s).reply = (registryRead B s').reply) :
    (Registry.load A s).1 = (Registry.load B s').1 := by
  have answers := Request.reply_inj same
  unfold Registry.load
  rcases first : A.answer (.select Registry.selectAll) s with ⟨_ | _, _⟩ <;>
    rcases second : B.answer (.select Registry.selectAll) s' with ⟨_ | _, _⟩
  all_goals
    rw [first, second] at answers
    cases answers
  · rfl
  · rfl

theorem registryRead_plain : (registryRead A s).request.Plain := .select fun _ mem => nomatch mem

theorem registryRead_sameText (h : Hierarchy) (catalog : ColumnCache)
    (same : (registryRead A s).reply = (registryRead B s').reply) :
    SameText h catalog t u (registryRead A s) (registryRead B s') where
  reply := same
  method := rfl
  sql := rfl
  marked := ⟨fun _ => (registryRead_plain A).placeholders, fun _ => (registryRead_plain B).placeholders⟩
  params := .inl ⟨rfl, fun _ mem => nomatch mem⟩

theorem run_load_ok {h : Hierarchy} (read : (Registry.load A s).1 = .ok h) :
    run (load A.overheard settings t) columns (s, []) =
      run (loadWith A.overheard h settings t) columns ((Registry.load A s).2, [registryRead A s]) := by
  have overheard := registry_overheard A (s := s) []
  rw [read] at overheard
  exact run_load A.overheard overheard columns

theorem run_load_fails {e : RegistryError} (read : (Registry.load A s).1 = .error e) :
    run (load A.overheard settings t) columns (s, []) =
      (.error (.registry e), columns, (Registry.load A s).2, [registryRead A s]) := by
  have overheard := registry_overheard A (s := s) []
  rw [read] at overheard
  exact run_load_error A.overheard overheard columns

theorem load_asks (t : Tree) (s : σ) :
    [registryRead A s] <+: (run (load A.overheard settings t) columns (s, [])).2.2.2 := by
  rcases read : (Registry.load A s).1 with e | h
  · have ended := run_load_fails A settings columns read (t := t)
    exact ⟨[], (congrArg (·.2.2.2) ended).symm⟩
  · rw [run_load_ok A settings columns read]
    have goes : GoesOn (loadWith A.overheard h settings t) :=
      .of_couples fun p₀ => (coupling_later A p₀).loadWith h settings t
    exact (goes { store := ((Registry.load A s).2, [registryRead A s]), columns }).heard

theorem load_sameCalls (twin : t.Twin u) (h : Hierarchy) (read : ∀ found, (Registry.load A s).1 = .ok found → found = h)
    (same : SameReplies (run (load A.overheard settings t) columns (s, [])).2.2.2
      (run (load B.overheard settings u) columns (s', [])).2.2.2) :
    SameCalls h t u columns (run (load A.overheard settings t) columns (s, []))
      (run (load B.overheard settings u) columns (s', [])) := by
  have reply : (registryRead A s).reply = (registryRead B s').reply := by
    obtain ⟨rest, calls⟩ := load_asks A settings columns t s
    obtain ⟨rest', calls'⟩ := load_asks B settings columns u s'
    rw [← calls, ← calls'] at same
    exact same.left.singletons
  have begun : ∀ catalog, List.Forall₂ (SameText h catalog t u) [registryRead A s] [registryRead B s'] := fun catalog =>
    .cons (registryRead_sameText A B h catalog reply) .nil
  -- Told the same, both sides read the same hierarchy or fail alike.
  have reads := registry_reads A B reply
  rcases own : (Registry.load A s).1 with e | found
  · rw [own] at reads
    rw [run_load_fails A settings columns own, run_load_fails B settings columns reads.symm]
    exact ⟨rfl, rfl, begun columns, fun _ _ => .inl⟩
  · rw [own] at reads
    obtain rfl := read found own
    rw [run_load_ok A settings columns own, run_load_ok B settings columns reads.symm] at same ⊢
    exact loadWith_sameCalls A B settings columns twin found begun same

end Loader

/-- Values never reach the text. Trees that differ in values at most are checked alike. Whatever the stores, as long as
they answer alike, the loads of such trees come to the same and ask the same but for parameters, with a hierarchy that
is given and with one that is read. -/
theorem values_bound (A : Store σ) (B : Store τ) (settings : LoadSettings) {t u : Tree} (twin : t.Twin u)
    (columns : ColumnCache) :
    (∀ h maxDepth, t.check h maxDepth = u.check h maxDepth) ∧
    (∀ h s s',
      let x := run (loadWith A.overheard h settings t) columns (s, [])
      let y := run (loadWith B.overheard h settings u) columns (s', [])
      SameReplies x.2.2.2 y.2.2.2 → SameCalls h t u columns x y) ∧
    ∀ h s s', (∀ found, (Registry.load A s).1 = .ok found → found = h) →
      let x := run (load A.overheard settings t) columns (s, [])
      let y := run (load B.overheard settings u) columns (s', [])
      SameReplies x.2.2.2 y.2.2.2 → SameCalls h t u columns x y ∧
        (run (load A settings t) columns s).1 = (run (load B settings u) columns s').1 := by
  refine ⟨Tree.check_twin twin, fun h _ _ same => loadWith_sameCalls A B settings columns twin h (fun _ => .nil) same, ?_⟩
  intro h s s' read x y same
  have calls : SameCalls h t u columns x y := load_sameCalls A B settings columns twin h read same
  have left : x.1 = (run (load A settings t) columns s).1 := (A.overheard_mirrors.run settings t columns rfl).1
  have right : y.1 = (run (load B settings u) columns s').1 := (B.overheard_mirrors.run settings u columns rfl).1
  exact ⟨calls, left.symm.trans (calls.result.trans right)⟩

namespace Sample

theorem box_twin (size item size' item' : String) : (box size item).Twin (box size' item') := by
  unfold box
  simp only [Tree.Twin, Tree.TwinEach]
  exact ⟨trivial, rfl, ⟨trivial, rfl, trivial⟩, trivial⟩

end Sample

theorem values_bound_boxes :
    let x := run (load (Database.store ColumnValue.system true).overheard {} (Sample.box "7" "x")) .empty
      (Sample.start.database, [])
    let y := run (load (Database.store ColumnValue.system true).overheard {} (Sample.box "8" "\"?")) .empty
      (Sample.start.database, [])
    x.1 = .ok { rowsInserted := 2, relationshipsInserted := 1, junctionsInserted := 1 } ∧ SameReplies x.2.2.2 y.2.2.2 ∧
      SameCalls Sample.boxes.hierarchy (Sample.box "7" "x") (Sample.box "8" "\"?") .empty x y := by
  have read : (Registry.load (Database.store ColumnValue.system true) Sample.start.database).1 =
      .ok Sample.boxes.hierarchy := by decide +kernel
  have same : SameReplies
      (run (load (Database.store ColumnValue.system true).overheard {} (Sample.box "7" "x")) .empty
        (Sample.start.database, [])).2.2.2
      (run (load (Database.store ColumnValue.system true).overheard {} (Sample.box "8" "\"?")) .empty
        (Sample.start.database, [])).2.2.2 := .inl (by decide +kernel)
  refine ⟨by decide +kernel, same, ?_⟩
  exact ((values_bound _ _ {} (Sample.box_twin "7" "x" "8" "\"?") .empty).2.2 _ _ _
    (fun found eq => Except.ok.inj (eq.symm.trans read)) same).1

end TreeStore
