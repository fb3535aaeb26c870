import TreeStore.Proofs.Numerals
import TreeStore.Proofs.Store.Query
import TreeStore.Proofs.Store.Values

/-! Which rows of an entity's table match a node. A row carries the attributes of a node if every column but
the id holds what the node has for it: an equal value once the text has been read, or null if the node has
none. The query for a node tests the attribute columns only; where the columns of relations are null, it
finds the first row that carries the node's attributes. -/

namespace TreeStore

open Loader

def Column.inCatalog (c : Column) : CatalogColumn := ⟨c.name, c.type⟩

/-- Whether a column of an entity's table holds attributes, by its name. -/
def Hierarchy.isAttributeName (h : Hierarchy) (type name : String) : Bool :=
  !Text.sameIgnoringCase name Schema.idColumn &&
    !((h.relationsOf type).map fun e => Schema.contextColumn e.relation).any (Text.sameIgnoringCase name ·)

variable {V : Type} (vs : ValueSystem V) (h : Hierarchy)

def holdsValue (attributes : TextMap String) (c : Column) (cell : Option (Cell V)) : Bool :=
  match valueFor? attributes c.inCatalog with
  | none => cell.isNone
  | some text => (vs.ofText? c.type text).any fun v => cell.any (·.same vs (.value v))

/-- What a node assigns to a column, as a value of the column's type. -/
def assigned? (attributes : TextMap String) (c : Column) : Option (Cell V) :=
  ((valueFor? attributes c.inCatalog).bind (vs.ofText? c.type)).map .value

namespace StoredTable

variable (t : StoredTable V)

def carries (attributes : TextMap String) (row : Cells V) : Bool :=
  t.columns.all fun c => sameName c.name Schema.idColumn || holdsValue vs attributes c (t.cell row c.name)

/-- Rows agree if they differ at most in their ids. -/
def Agree (row row' : Cells V) : Prop :=
  ∀ c ∈ t.columns, sameName c.name Schema.idColumn = false →
    Cell.sameOrNull vs (t.cell row c.name) (t.cell row' c.name) = true

def idOf? (row : Cells V) : Option Int :=
  match t.cell row Schema.idColumn with
  | some (.id n) => some n
  | _ => none

def Fits (attributes : TextMap String) : Prop :=
  ∀ k ∈ attributes.keys, ∃ c ∈ t.columns,
    h.isAttributeName t.name c.name = true ∧ Text.sameIgnoringCase c.name k = true

def HasAttribute (key : String) : Prop :=
  ∃ c ∈ t.columns, h.isAttributeName t.name c.name = true ∧ Text.sameIgnoringCase c.name key = true

/-- Every value of a node can be read as one of its column's type. -/
def Castable (attributes : TextMap String) : Prop :=
  ∀ c ∈ t.columns, h.isAttributeName t.name c.name = true → ∀ text, valueFor? attributes c.inCatalog = some text →
    (vs.ofText? c.type text).isSome = true

/-- The columns of an entity's table: the id, and columns that may be null and have no default. -/
structure OfEntity (sequence : String) : Prop where
  distinct : t.Distinct
  ascii : ∀ c ∈ t.columns, Text.IsAscii c.name
  noKey : t.primaryKey = []
  columns : ∃ c rest, t.columns = c :: rest ∧ c.name = Schema.idColumn ∧ c.primaryKey = true ∧
    c.default? = some (.next sequence) ∧ c.references? = none ∧
    ∀ d ∈ rest, d.default? = none ∧ d.primaryKey = false ∧ d.notNull = false

/-- The columns of relations are null in a row. -/
def Hides (row : Cells V) : Prop :=
  ∀ c ∈ t.columns, sameName c.name Schema.idColumn = false → h.isAttributeName t.name c.name = false →
    t.cell row c.name = none

/-- What is not an id is a value that was read. -/
def Holds (row : Cells V) : Prop :=
  ∀ c ∈ t.columns, sameName c.name Schema.idColumn = false → ∀ x, t.cell row c.name = some x → ∃ v, x = .value v

end StoredTable

theorem valueFor?_isSome {attributes : TextMap String} {c : CatalogColumn} :
    (valueFor? attributes c).isSome = true ↔ ∃ k ∈ attributes.keys, Text.sameIgnoringCase k c.name = true := by
  rw [valueFor?, Option.isSome_map, List.find?_isSome]
  simp [TextMap.keys]

/-- The value of a column, if one key is the column's name in some case. -/
theorem valueFor?_only {attributes : TextMap String} {key s : String} {c : CatalogColumn}
    (given : attributes.get? key = some s)
    (only : ∀ k ∈ attributes.keys, Text.sameIgnoringCase k c.name = true ↔ k = key) :
    valueFor? attributes c = some s := by
  have mem : (key, s) ∈ attributes.entries := (attributes.get?_eq_some).1 given
  have there : key ∈ attributes.keys := List.mem_map.2 ⟨_, mem, rfl⟩
  obtain ⟨value, found⟩ := Option.isSome_iff_exists.1 (valueFor?_isSome.2 ⟨key, there, (only key there).2 rfl⟩)
  obtain ⟨x, first, own⟩ := Option.map_eq_some_iff.1 found
  have mem' := List.mem_of_find?_eq_some first
  have same : Text.sameIgnoringCase x.1 c.name = true :=
    List.find?_some (p := fun a : String × String => Text.sameIgnoringCase a.1 c.name) first
  have key' := (only x.1 (List.mem_map.2 ⟨x, mem', rfl⟩)).1 same
  rw [found, ← own, attributes.entries_functional mem' mem key']

namespace StoredTable

variable {vs h} {t : StoredTable V} {sequence : String} {attributes : TextMap String} {row row' : Cells V}

/-! ### Columns of an entity's table -/

theorem isAscii_idColumn : Text.IsAscii Schema.idColumn :=
  Text.isAscii_iff.2 rfl

theorem OfEntity.attribute_not_id (ofEntity : t.OfEntity sequence) {c : Column} (mem : c ∈ t.columns)
    (own : h.isAttributeName t.name c.name = true) : sameName c.name Schema.idColumn = false := by
  rw [Hierarchy.isAttributeName, Bool.and_eq_true, Bool.not_eq_true'] at own
  rw [← sameIgnoringCase_ascii (ofEntity.ascii c mem) isAscii_idColumn]
  exact own.1

theorem OfEntity.column_unique (ofEntity : t.OfEntity sequence) {c d : Column} (hc : c ∈ t.columns)
    (hd : d ∈ t.columns) {k : String} (left : Text.sameIgnoringCase c.name k = true)
    (right : Text.sameIgnoringCase k d.name = true) : c = d := by
  have same : Text.sameIgnoringCase c.name d.name = true :=
    Text.sameIgnoringCase_iff.2 ((Text.sameIgnoringCase_iff.1 left).trans (Text.sameIgnoringCase_iff.1 right))
  rw [sameIgnoringCase_ascii (ofEntity.ascii c hc) (ofEntity.ascii d hd)] at same
  exact List.inj_on_of_nodup_map ofEntity.distinct hc hd (sameName_iff.1 same)

theorem Fits.valueFor?_eq_none (fits : t.Fits h attributes) (ofEntity : t.OfEntity sequence) {c : Column}
    (mem : c ∈ t.columns) (other : h.isAttributeName t.name c.name = false) :
    valueFor? attributes c.inCatalog = none := by
  rw [← Option.not_isSome_iff_eq_none, valueFor?_isSome]
  rintro ⟨k, hk, same⟩
  obtain ⟨d, hd, own, key⟩ := fits k hk
  rw [ofEntity.column_unique hd mem key same, other] at own
  cases own

theorem carries_iff : t.carries vs attributes row = true ↔ ∀ c ∈ t.columns, sameName c.name Schema.idColumn = false →
    holdsValue vs attributes c (t.cell row c.name) = true := by
  simp only [carries, List.all_eq_true, Bool.or_eq_true_iff, ← Bool.not_eq_true, or_iff_not_imp_left]

/-- A row that hides its relations carries the attributes of a node that fits if its attribute columns do. -/
theorem Fits.carries_iff (fits : t.Fits h attributes) (ofEntity : t.OfEntity sequence) (hides : t.Hides h row) :
    t.carries vs attributes row = true ↔ ∀ c ∈ t.columns, h.isAttributeName t.name c.name = true →
      holdsValue vs attributes c (t.cell row c.name) = true := by
  rw [StoredTable.carries_iff]
  constructor
  · exact fun all c mem own => all c mem (ofEntity.attribute_not_id mem own)
  · intro all c mem other
    cases own : h.isAttributeName t.name c.name with
    | true => exact all c mem own
    | false =>
      rw [holdsValue, fits.valueFor?_eq_none ofEntity mem own, hides c mem other own]
      rfl

/-! ### Values and nulls -/

theorem sameOrNull_equivalence (ideal : vs.Ideal) :
    Equivalence fun a b : Option V => Cell.sameOrNull vs (a.map .value) (b.map .value) = true where
  refl := fun a => by
    cases a with
    | none => rfl
    | some x => exact ideal.equivalence.refl x
  symm := fun {a b} same => by
    cases a with
    | none => cases b with
      | none => rfl
      | some y => cases same
    | some x => cases b with
      | none => cases same
      | some y => exact ideal.equivalence.symm same
  trans := fun {a b c} same same' => by
    cases a with
    | none => cases b with
      | none => exact same'
      | some y => cases same
    | some x => cases b with
      | none => cases same
      | some y => cases c with
        | none => cases same'
        | some z => exact ideal.equivalence.trans same same'

theorem holdsValue_readable {c : Column} {cell : Option (Cell V)} (held : holdsValue vs attributes c cell = true)
    (text : String) (value : valueFor? attributes c.inCatalog = some text) :
    (vs.ofText? c.type text).isSome = true := by
  rw [holdsValue, value] at held
  obtain ⟨v, read, _⟩ := (Option.any_eq_true _ _).1 held
  rw [read]
  rfl

theorem holdsValue_eq {c : Column} {cell : Option (Cell V)}
    (readable : ∀ text, valueFor? attributes c.inCatalog = some text → (vs.ofText? c.type text).isSome = true) :
    holdsValue vs attributes c cell = Cell.sameOrNull vs cell (assigned? vs attributes c) := by
  rw [holdsValue, assigned?]
  cases value : valueFor? attributes c.inCatalog with
  | none => cases cell <;> rfl
  | some text =>
    obtain ⟨v, read⟩ := Option.isSome_iff_exists.1 (readable text value)
    simp only [read, Option.bind_some, Option.map_some, Option.any_some]
    cases cell <;> rfl

theorem Holds.cell_value (holds : t.Holds row) {c : Column} (mem : c ∈ t.columns)
    (other : sameName c.name Schema.idColumn = false) : ∃ a : Option V, t.cell row c.name = a.map .value := by
  cases cell : t.cell row c.name with
  | none => exact ⟨none, rfl⟩
  | some x =>
    obtain ⟨v, rfl⟩ := holds c mem other x cell
    exact ⟨some v, rfl⟩

/-! ### Agreement -/

section Rows

variable (ideal : vs.Ideal) (holds : t.Holds row) (holds' : t.Holds row')
include ideal holds holds'

theorem Agree.symm (agree : t.Agree vs row row') : t.Agree vs row' row := by
  intro c mem other
  have same := agree c mem other
  obtain ⟨a, left⟩ := holds.cell_value mem other
  obtain ⟨b, right⟩ := holds'.cell_value mem other
  rw [left, right] at same ⊢
  exact (sameOrNull_equivalence ideal).symm same

theorem Agree.carries (agree : t.Agree vs row row') (carried : t.carries vs attributes row = true) :
    t.carries vs attributes row' = true := by
  rw [carries_iff] at carried ⊢
  intro c mem other
  have same := agree c mem other
  have held := carried c mem other
  have readable := holdsValue_readable held
  rw [holdsValue_eq readable] at held ⊢
  obtain ⟨a, left⟩ := holds.cell_value mem other
  obtain ⟨b, right⟩ := holds'.cell_value mem other
  rw [left, right] at same
  rw [left] at held
  rw [right]
  have equivalence := sameOrNull_equivalence ideal
  exact equivalence.trans (equivalence.symm same) held

theorem agree_of_carries (carried : t.carries vs attributes row = true)
    (carried' : t.carries vs attributes row' = true) : t.Agree vs row row' := by
  rw [carries_iff] at carried carried'
  intro c mem other
  have held := carried c mem other
  have held' := carried' c mem other
  have readable := holdsValue_readable held
  rw [holdsValue_eq readable] at held held'
  obtain ⟨a, left⟩ := holds.cell_value mem other
  obtain ⟨b, right⟩ := holds'.cell_value mem other
  rw [left] at held ⊢
  rw [right] at held' ⊢
  have equivalence := sameOrNull_equivalence ideal
  exact equivalence.trans held (equivalence.symm held')

end Rows

theorem castable_of_carries (ofEntity : t.OfEntity sequence) (carried : t.carries vs attributes row = true) :
    t.Castable vs h attributes := by
  intro c mem own
  exact holdsValue_readable (carries_iff.1 carried c mem (ofEntity.attribute_not_id mem own))

end StoredTable

end TreeStore
