import TreeStore.Proofs.Load.Lockstep
import TreeStore.Proofs.Load.Gains
import TreeStore.Proofs.Load.Violations
import TreeStore.Proofs.Sql.Placeholders

/-! Trees that differ in the values of attributes at most. They are checked alike, and what is asked for a node of one
and for its twin differs in parameters at most, which are the values of the two nodes in the order of the columns. -/

namespace TreeStore

open Loader Sql

/-! ### Trees -/

structure Label.Twin (l l' : Label) : Prop where
  type : l.type = l'.type
  keys : l.attributes.keys = l'.attributes.keys

structure Trail.Twin (x x' : Trail) : Prop where
  path : x.path = x'.path
  node : x.node.Twin x'.node
  above : List.Forall₂ Label.Twin x.above x'.above

namespace Tree

mutual

/-- Two trees differ in the values of attributes at most. -/
def Twin : Tree → Tree → Prop
  | ⟨type, attributes, children⟩, ⟨type', attributes', children'⟩ =>
    type = type' ∧ attributes.keys = attributes'.keys ∧ TwinEach children children'

def TwinEach : List Tree → List Tree → Prop
  | [], [] => True
  | c :: rest, d :: rest' => Twin c d ∧ TwinEach rest rest'
  | [], _ :: _ => False
  | _ :: _, [] => False

end

mutual

theorem trailsAt_twin {path : NodePath} {above above' : List Label} (below : List.Forall₂ Label.Twin above above') :
    (t u : Tree) → (twin : t.Twin u) → List.Forall₂ Trail.Twin (t.trailsAt path above) (u.trailsAt path above')
  | ⟨type, attributes, children⟩, ⟨type', attributes', children'⟩, twin => by
    rw [Twin] at twin
    obtain ⟨rfl, keys, each⟩ := twin
    have own : Label.Twin ⟨type, attributes⟩ ⟨type, attributes'⟩ := ⟨rfl, keys⟩
    rw [trailsAt, trailsAt]
    exact .cons ⟨rfl, own, below⟩ (trailsBelow_twin (.cons own below) children children' each)

theorem trailsBelow_twin {path : NodePath} {above above' : List Label} {index : Nat}
    (below : List.Forall₂ Label.Twin above above') : (ts us : List Tree) → (twins : TwinEach ts us) →
    List.Forall₂ Trail.Twin (trailsBelow path above index ts) (trailsBelow path above' index us)
  | [], [], _ => .nil
  | c :: rest, d :: rest', twins => by
    rw [TwinEach] at twins
    have same : c.type = d.type := by
      obtain ⟨_, _, _⟩ := c
      obtain ⟨_, _, _⟩ := d
      rw [Twin] at twins
      exact twins.1.1
    rw [trailsBelow, trailsBelow, same]
    exact List.rel_append (trailsAt_twin below c d twins.1) (trailsBelow_twin below rest rest' twins.2)

end

theorem type_twin {t u : Tree} (twin : t.Twin u) : t.type = u.type := by
  obtain ⟨_, _, _⟩ := t
  obtain ⟨_, _, _⟩ := u
  rw [Twin] at twin
  exact twin.1

theorem trails_twin {t u : Tree} (twin : t.Twin u) : List.Forall₂ Trail.Twin t.trails u.trails := by
  rw [trails, trails, type_twin twin]
  exact trailsAt_twin .nil t u twin

end Tree

theorem Trail.Twin.verdict {x x' : Trail} (twin : x.Twin x') (h : Hierarchy) (maxDepth : Nat) :
    x.verdict h maxDepth = x'.verdict h maxDepth := by
  obtain ⟨path, ⟨type, attributes⟩, above⟩ := x
  obtain ⟨path', ⟨type', attributes'⟩, above'⟩ := x'
  obtain ⟨same, ⟨types, keys⟩, around⟩ := twin
  dsimp only at same types keys around
  subst same types
  unfold Trail.verdict
  dsimp only
  rw [keys]
  cases around with
  | nil => rfl
  | @cons p p' _ _ parent rest =>
    rw [List.head?_cons, List.head?_cons]
    by_cases linked : h.has p'.type type = true
    · have passed : ∀ q : Label, q.type = p'.type → (some q).filter (fun q => !h.has q.type type) = none := by
        intro q same
        simp [same, linked]
      rw [passed p parent.type, passed p' rfl]
    · have kept : ∀ q : Label, q.type = p'.type → (some q).filter (fun q => !h.has q.type type) = some q := by
        intro q same
        simp [same, linked]
      rw [kept p parent.type, kept p' rfl]
      dsimp only
      rw [parent.type]

theorem Tree.check_twin {t u : Tree} (twin : t.Twin u) (h : Hierarchy) (maxDepth : Nat) :
    t.check h maxDepth = u.check h maxDepth := by
  rw [check_eq, check_eq, List.forM_eq_forM]
  have twins := trails_twin twin
  generalize t.trails = xs at twins
  generalize u.trails = ys at twins
  induction twins with
  | nil => rfl
  | cons first rest ih => rw [List.forM_cons, List.forM_cons, first.verdict, ih]

/-! ### Requests for a node -/

theorem Select.sql_congr {q q' : Select} (selection : q.selection.sql = q'.selection.sql)
    (table : Ident.quote q.table = Ident.quote q'.table)
    (conditions : q.conditions.map (·.sql) = q'.conditions.map (·.sql)) (order : q.orderBy = q'.orderBy)
    (limit : q.firstOnly = q'.firstOnly) : q.sql = q'.sql := by
  have none : q.conditions.isEmpty = q'.conditions.isEmpty := by
    have same := congrArg List.isEmpty conditions
    rwa [List.isEmpty_map, List.isEmpty_map] at same
  rw [Select.sql, Select.sql, selection, table, conditions, order, limit, none]

theorem Insert.sql_congr {i i' : Insert} (table : i.table = i'.table)
    (values : i.values.map (fun v => (v.1, v.2.sql)) = i'.values.map fun v => (v.1, v.2.sql)) : i.sql = i'.sql := by
  have names := congrArg (List.map Prod.fst) values
  have operands := congrArg (List.map Prod.snd) values
  rw [List.map_map, List.map_map] at names operands
  -- The text is compared part by part: the equation of its definition takes long to make.
  have whole : ∀ {t t' : String} {ns ns' os os' : List String}, t = t' → ns = ns' → os = os' →
      "INSERT INTO " ++ Ident.quote t ++ " (" ++ quotedNames ns ++ ") VALUES (" ++ ", ".intercalate os ++ ")" =
        "INSERT INTO " ++ Ident.quote t' ++ " (" ++ quotedNames ns' ++ ") VALUES (" ++ ", ".intercalate os' ++ ")" := by
    rintro t _ ns _ os _ rfl rfl rfl
    rfl
  exact whole table names operands

namespace Label

variable (l : Label) (columns : List CatalogColumn)

def bound : List Param := (columns.filterMap (valueFor? l.attributes)).map .text

def finding : Request := .select (selectId l.type (nodeValues l.attributes columns))

def insertion : Request := .insertReturning ⟨l.type, givenValues (nodeValues l.attributes columns)⟩

/-- The query and the insertion have one and the same list of parameters. -/
theorem finding_params : (l.finding columns).params = l.bound columns := by
  simp only [finding, Request.params, Select.params, selectId, nodeValues, bound, List.map_map, List.filterMap_map,
    List.map_filterMap]
  congr 1
  funext c
  cases given : valueFor? l.attributes c <;> simp [given, conditionOf, Condition.param?, castOperand]

theorem insertion_params : (l.insertion columns).params = l.bound columns := by
  simp only [insertion, Request.params, Insert.params, givenValues, nodeValues, bound, List.filterMap_map,
    List.map_filterMap]
  congr 1
  funext c
  cases given : valueFor? l.attributes c <;> simp [given, castOperand]

variable {l columns} {l' : Label}

theorem Twin.given (twin : l.Twin l') (c : CatalogColumn) :
    (valueFor? l.attributes c).isSome = (valueFor? l'.attributes c).isSome := by
  rw [Bool.eq_iff_iff, valueFor?_isSome, valueFor?_isSome, twin.keys]

theorem Twin.isEmpty (twin : l.Twin l') : l.attributes.isEmpty = l'.attributes.isEmpty := by
  have same := congrArg List.isEmpty twin.keys
  rwa [TextMap.keys, TextMap.keys, List.isEmpty_map, List.isEmpty_map] at same

/-- Of one column the two nodes both have a value or both have none. -/
theorem Twin.value (twin : l.Twin l') (c : CatalogColumn) :
    valueFor? l.attributes c = none ∧ valueFor? l'.attributes c = none ∨
      ∃ v v', valueFor? l.attributes c = some v ∧ valueFor? l'.attributes c = some v' := by
  have given := twin.given c
  cases first : valueFor? l.attributes c with
  | none =>
    cases second : valueFor? l'.attributes c with
    | none => exact .inl ⟨rfl, rfl⟩
    | some v' => rw [first, second] at given; cases given
  | some v =>
    cases second : valueFor? l'.attributes c with
    | none => rw [first, second] at given; cases given
    | some v' => exact .inr ⟨v, v', rfl, rfl⟩

theorem Twin.finding_sql (twin : l.Twin l') (columns : List CatalogColumn) :
    (l.finding columns).sql = (l'.finding columns).sql := by
  refine Select.sql_congr rfl (congrArg Ident.quote twin.type) ?_ rfl rfl
  rw [selectId, selectId, nodeValues, nodeValues, List.map_map, List.map_map, List.map_map, List.map_map]
  refine List.map_congr_left fun c _ => ?_
  rcases twin.value c with ⟨first, second⟩ | ⟨v, v', first, second⟩
  · simp only [Function.comp_apply, first, second]
  · simp only [Function.comp_apply, first, second]
    rfl

theorem Twin.insertion_sql (twin : l.Twin l') (columns : List CatalogColumn) :
    (l.insertion columns).sql = (l'.insertion columns).sql := by
  have values : (givenValues (nodeValues l.attributes columns)).map (fun v => (v.1, v.2.sql)) =
      (givenValues (nodeValues l'.attributes columns)).map fun v => (v.1, v.2.sql) := by
    rw [givenValues, givenValues, nodeValues, nodeValues, List.filterMap_map, List.filterMap_map, List.map_filterMap,
      List.map_filterMap]
    refine List.filterMap_congr fun c _ => ?_
    rcases twin.value c with ⟨first, second⟩ | ⟨v, v', first, second⟩
    · simp only [Function.comp_apply, first, second]
    · simp only [Function.comp_apply, first, second]
      rfl
  exact congrArg (· ++ " RETURNING " ++ Ident.quote Schema.idColumn) (Insert.sql_congr twin.type values)

/-! ### Types of casts -/

/-- A value of the node that is read as its column's type. -/
def Casts (l : Label) (columns : List CatalogColumn) (o : Operand) : Prop :=
  ∃ c ∈ columns, (valueFor? l.attributes c).isSome = true ∧ o.type? = some c.type

theorem values_casts : ∀ v ∈ nodeValues l.attributes columns, ∀ o ∈ v.2, l.Casts columns o := by
  intro v mem o own
  obtain ⟨c, hc, rfl⟩ := List.mem_map.1 mem
  obtain ⟨text, given, rfl⟩ := Option.map_eq_some_iff.1 own
  exact ⟨c, hc, by rw [given]; rfl, rfl⟩

theorem finding_casts : ∀ c ∈ (selectId l.type (nodeValues l.attributes columns)).conditions, ∀ o ∈ c.operand?,
    l.Casts columns o := by
  intro c mem o asked
  obtain ⟨⟨column, value⟩, hv, rfl⟩ := List.mem_map.1 mem
  cases value with
  | none => cases asked
  | some operand =>
    cases asked
    exact values_casts _ hv _ rfl

theorem insertion_casts : ∀ v ∈ givenValues (nodeValues l.attributes columns), l.Casts columns v.2 := by
  intro v mem
  obtain ⟨w, hw, given⟩ := List.mem_filterMap.1 mem
  obtain ⟨o, own, rfl⟩ := Option.map_eq_some_iff.1 given
  exact values_casts w hw o own

def PlainOn (l : Label) (columns : List CatalogColumn) : Prop :=
  ∀ c ∈ columns, (valueFor? l.attributes c).isSome = true → isPlainType c.type = true

theorem PlainOn.twin (plain : l.PlainOn columns) (twin : l.Twin l') : l'.PlainOn columns :=
  fun c mem given => plain c mem ((twin.given c).trans given)

theorem PlainOn.casts (plain : l.PlainOn columns) {o : Operand} (casts : l.Casts columns o) : o.Plain := by
  obtain ⟨c, mem, given, typed⟩ := casts
  intro type cast
  obtain rfl : c.type = type := Option.some.inj (typed.symm.trans cast)
  exact plain c mem given

theorem PlainOn.finding (plain : l.PlainOn columns) : (l.finding columns).Plain :=
  .select fun c mem o asked => plain.casts (finding_casts c mem o asked)

theorem PlainOn.insertion (plain : l.PlainOn columns) : (l.insertion columns).Plain :=
  .insertReturning fun v mem => plain.casts (insertion_casts v mem)

end Label

end TreeStore
