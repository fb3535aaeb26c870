import TreeStore.Proofs.Load.Contents

/-! What the table of an entity holds after loads that have all succeeded: for every assignment of values that a
node of the entity carries just one row, and no other row. -/

namespace TreeStore

open Database Loader

variable {V : Type} (vs : ValueSystem V)

/-- Two nodes assign equal values, or none, to every column of a table but the id. -/
def StoredTable.SameAssignment (t : StoredTable V) (attributes attributes' : TextMap String) : Prop :=
  ∀ c ∈ t.columns, sameName c.name Schema.idColumn = false →
    Cell.sameOrNull vs (assigned? vs attributes c) (assigned? vs attributes' c) = true

/-- A table holds the nodes of an entity: there is one row for each assignment of values, and no other. -/
structure HoldsNodes (m : Model) (calls : List LoadCall) (type : String) (t : StoredTable V) : Prop where
  fits : ∀ x, BearingIn calls x → x.node.type = type → t.Fits m.hierarchy x.node.attributes
  castable : ∀ x, BearingIn calls x → x.node.type = type → t.Castable vs m.hierarchy x.node.attributes
  one : ∀ x, BearingIn calls x → x.node.type = type →
    ∃! i : Nat, ∃ row, t.rows[i]? = some row ∧ t.carries vs x.node.attributes row = true
  only : ∀ row ∈ t.rows, ∃ x, BearingIn calls x ∧ x.node.type = type ∧ t.carries vs x.node.attributes row = true
  shared : ∀ x y, BearingIn calls x → BearingIn calls y → x.node.type = type → y.node.type = type → ∀ row ∈ t.rows,
    t.carries vs x.node.attributes row = true →
      (t.carries vs y.node.attributes row = true ↔ t.SameAssignment vs x.node.attributes y.node.attributes)
  numbered : ∀ row ∈ t.rows, (t.idOf? row).isSome = true
  apart : (t.rows.map t.idOf?).Nodup

variable {vs} {h : Hierarchy} {t : StoredTable V} {sequence : String} {next : Int}
  {attributes attributes' : TextMap String} {row row' : Cells V}

namespace StoredTable

/-! ### Assignments -/

theorem Fits.readable (fits : t.Fits h attributes) (castable : t.Castable vs h attributes)
    (ofEntity : t.OfEntity sequence) {c : Column} (mem : c ∈ t.columns) {text : String}
    (value : valueFor? attributes c.inCatalog = some text) : (vs.ofText? c.type text).isSome = true := by
  cases own : h.isAttributeName t.name c.name with
  | true => exact castable c mem own text value
  | false =>
    rw [fits.valueFor?_eq_none ofEntity mem own] at value
    cases value

/-- A row that carries the attributes of one node carries those of another exactly if the two assign the same. -/
theorem carries_iff_sameAssignment (ideal : vs.Ideal) (ofEntity : t.OfEntity sequence) (holds : t.Holds row)
    (fits : t.Fits h attributes) (castable : t.Castable vs h attributes) (fits' : t.Fits h attributes')
    (castable' : t.Castable vs h attributes') (carried : t.carries vs attributes row = true) :
    t.carries vs attributes' row = true ↔ t.SameAssignment vs attributes attributes' := by
  rw [carries_iff] at carried ⊢
  refine forall₂_congr fun c mem => forall_congr' fun other => ?_
  have held := carried c mem other
  rw [holdsValue_eq fun text => fits.readable castable ofEntity mem] at held
  rw [holdsValue_eq fun text => fits'.readable castable' ofEntity mem]
  obtain ⟨a, cell⟩ := holds.cell_value mem other
  rw [cell] at held ⊢
  have equivalence := sameOrNull_equivalence ideal
  exact ⟨equivalence.trans (equivalence.symm held), equivalence.trans held⟩

/-! ### One row for each node -/

theorem EntityRows.unique (rows : t.EntityRows vs h next) (ideal : vs.Ideal) {i j : Nat}
    (first : t.rows[i]? = some row) (second : t.rows[j]? = some row')
    (carried : t.carries vs attributes row = true) (carried' : t.carries vs attributes row' = true) : i = j := by
  have apart {i j : Nat} {r r' : Cells V} (hi : t.rows[i]? = some r) (hj : t.rows[j]? = some r')
      (left : t.carries vs attributes r = true) (right : t.carries vs attributes r' = true) : ¬ i < j := by
    intro lt
    obtain ⟨below, rfl⟩ := List.getElem?_eq_some_iff.1 hi
    obtain ⟨below', rfl⟩ := List.getElem?_eq_some_iff.1 hj
    have holds := rows.holds _ (List.getElem_mem below)
    have holds' := rows.holds _ (List.getElem_mem below')
    -- Two rows that carry the same attributes agree, and no two rows of the table do.
    exact List.pairwise_iff_getElem.1 rows.distinct i j below below' lt (agree_of_carries ideal holds holds' left right)
  have notLess := apart first second carried carried'
  have notMore := apart second first carried' carried
  omega

theorem EntityRows.row_unique (rows : t.EntityRows vs h next) (ideal : vs.Ideal) (mem : row ∈ t.rows)
    (mem' : row' ∈ t.rows) (carried : t.carries vs attributes row = true)
    (carried' : t.carries vs attributes row' = true) : row = row' := by
  obtain ⟨i, first⟩ := List.getElem?_of_mem mem
  obtain ⟨j, second⟩ := List.getElem?_of_mem mem'
  obtain rfl := rows.unique ideal first second carried carried'
  exact Option.some.inj (first.symm.trans second)

end StoredTable

/-! ### The tables of entities -/

variable {m : Model} {calls : List LoadCall} {db : Database V} {u : Table} {x : Trail}

theorem Database.idAt_row (compiles : m.Compiles) (there : LaysOut vs m db) {l : Label} (table : m.TableFor l.type u)
    {n : Int} (id : db.idAt vs l = some n) : ∃ row ∈ db.rowsOf u.name,
      (stored vs u).carries vs l.attributes row = true ∧ (stored vs u).idOf? row = some n := by
  rw [idAt_bearing (idAt_bears id), ← table.name, there.numberOf compiles table.mem] at id
  obtain ⟨row, first, number⟩ := Option.bind_eq_some_iff.1 id
  exact ⟨row, List.mem_of_find?_eq_some first, List.find?_some first, number⟩

namespace Contents

variable (contents : Contents vs m calls db)
include contents

theorem id_of (bearing : BearingIn calls x) : ∃ n, db.idAt vs x.node = some n :=
  Option.isSome_iff_exists.1 (contents.knows bearing x.node List.mem_cons_self bearing.1)

variable (compiles : m.Compiles)
include compiles

omit compiles in
theorem entityRows (mem : u ∈ m.tables) (kind : u.kind = .entity) :
    ∃ next, (db.tableAt vs u).EntityRows vs m.hierarchy next := by
  obtain ⟨n, _, _, _, rows⟩ := contents.consistent.entities u mem kind
  exact ⟨n, rows⟩

theorem fits_of (bearing : BearingIn calls x) (table : m.TableFor x.node.type u) :
    (db.tableAt vs u).Fits m.hierarchy x.node.attributes ∧
      (db.tableAt vs u).Castable vs m.hierarchy x.node.attributes := by
  obtain ⟨bears, c, hc, hx⟩ := bearing
  obtain ⟨t, table', fits, castable⟩ := (contents.recorded c hc x hx).fits bears
  obtain rfl := table.unique compiles table'
  exact ⟨fits, castable⟩

theorem row_of (bearing : BearingIn calls x) (table : m.TableFor x.node.type u) : ∃ row ∈ db.rowsOf u.name,
    (db.tableAt vs u).carries vs x.node.attributes row = true ∧
      (db.tableAt vs u).idOf? row = db.idAt vs x.node := by
  obtain ⟨n, id⟩ := contents.id_of bearing
  obtain ⟨row, mem, carried, number⟩ := idAt_row compiles contents.consistent.there table id
  exact ⟨row, mem, carried, number.trans id.symm⟩

omit compiles in
theorem node_of (mem : u ∈ m.tables) (kind : u.kind = .entity) {row : Cells V} (hrow : row ∈ db.rowsOf u.name) :
    ∃ x, BearingIn calls x ∧ m.TableFor x.node.type u ∧
      (db.tableAt vs u).carries vs x.node.attributes row = true := by
  have data : u.kind ≠ .registry := by
    rw [kind]
    decide
  obtain ⟨c, hc, x, hx, origin⟩ := contents.origin u mem data row hrow
  cases origin with
  | entity bears table carried => exact ⟨x, ⟨bears, c, hc, hx⟩, table, carried⟩
  | leaf bears entity name leaf table ids => rw [table] at kind; cases kind
  | pair bears asked entity own first target table above id ids => rw [table] at kind; cases kind

theorem holdsNodes (ideal : vs.Ideal) (mem : u ∈ m.tables) (kind : u.kind = .entity) :
    HoldsNodes vs m calls u.name (db.tableAt vs u) := by
  obtain ⟨next, rows⟩ := contents.entityRows mem kind
  have ofEntity := compiles.stored_ofEntity vs mem kind (db.rowsOf u.name)
  have table {x : Trail} (type : x.node.type = u.name) : m.TableFor x.node.type u := ⟨mem, kind, type.symm⟩
  constructor
  · exact fun x bearing type => (contents.fits_of compiles bearing (table type)).1
  · exact fun x bearing type => (contents.fits_of compiles bearing (table type)).2
  · intro x bearing type
    obtain ⟨row, hrow, carried, _⟩ := contents.row_of compiles bearing (table type)
    obtain ⟨i, found⟩ := List.getElem?_of_mem hrow
    refine ⟨i, ⟨row, found, carried⟩, ?_⟩
    rintro j ⟨row', found', carried'⟩
    exact rows.unique ideal found' found carried' carried
  · intro row hrow
    obtain ⟨x, bearing, table, carried⟩ := contents.node_of mem kind hrow
    exact ⟨x, bearing, table.name.symm, carried⟩
  · intro x y bearing bearing' type type' row hrow carried
    obtain ⟨fits, castable⟩ := contents.fits_of compiles bearing (table type)
    obtain ⟨fits', castable'⟩ := contents.fits_of compiles bearing' (table type')
    exact StoredTable.carries_iff_sameAssignment ideal ofEntity (rows.holds row hrow) fits castable fits' castable'
      carried
  · intro row hrow
    obtain ⟨n, number, _⟩ := rows.numbered row hrow
    exact Option.isSome_iff_exists.2 ⟨n, number⟩
  · exact rows.apart

/-- Nodes of one type have different rows if some column tells their values apart. -/
theorem idAt_ne (ideal : vs.Ideal) {y : Trail} (bearing : BearingIn calls x) (bearing' : BearingIn calls y)
    (same : x.node.type = y.node.type) (table : m.TableFor x.node.type u) {c : Column}
    (mem : c ∈ (db.tableAt vs u).columns) {s s' : String} (value : valueFor? x.node.attributes c.inCatalog = some s)
    (value' : valueFor? y.node.attributes c.inCatalog = some s')
    (apart : ∀ v v', vs.ofText? c.type s = some v → vs.ofText? c.type s' = some v' → vs.same v v' = false) :
    db.idAt vs x.node ≠ db.idAt vs y.node := by
  intro equal
  have holds := contents.holdsNodes compiles ideal table.mem table.kind
  have ofEntity := compiles.stored_ofEntity vs table.mem table.kind (db.rowsOf u.name)
  obtain ⟨fits, castable⟩ := contents.fits_of compiles bearing table
  obtain ⟨fits', castable'⟩ := contents.fits_of compiles bearing' (same ▸ table)
  obtain ⟨row, hrow, carried, id⟩ := contents.row_of compiles bearing table
  obtain ⟨row', hrow', carried', id'⟩ := contents.row_of compiles bearing' (same ▸ table)
  obtain rfl : row = row' := List.inj_on_of_nodup_map holds.apart hrow hrow' (id.trans (equal.trans id'.symm))
  have shared := holds.shared x y bearing bearing' table.name.symm (same ▸ table.name.symm) row hrow carried
  have other : sameName c.name Schema.idColumn = false := by
    cases own : m.hierarchy.isAttributeName (db.tableAt vs u).name c.name with
    | true => exact ofEntity.attribute_not_id mem own
    | false => cases value.symm.trans (fits.valueFor?_eq_none ofEntity mem own)
  obtain ⟨v, read⟩ := Option.isSome_iff_exists.1 (fits.readable castable ofEntity mem value)
  obtain ⟨v', read'⟩ := Option.isSome_iff_exists.1 (fits'.readable castable' ofEntity mem value')
  have equalValues := shared.1 carried' c mem other
  simp only [assigned?, value, value', Option.bind_some, read, read', Option.map_some, Cell.sameOrNull, Cell.same,
    apart v v' read read'] at equalValues
  cases equalValues

end Contents

end TreeStore
