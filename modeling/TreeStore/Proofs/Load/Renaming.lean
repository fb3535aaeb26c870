import TreeStore.Proofs.Load.Surroundings

/-! Databases with the same contents. If the same trees are loaded in two databases, in whatever order, the one
is the other with ids renamed: nodes that share an id in the one share an id in the other. -/

namespace TreeStore

open Database Loader

variable {V : Type} (vs : ValueSystem V) (m : Model)

/-- The ids in a row are renamed, each as an id of the entity that its column references. -/
def renamedRow (rename : String → Int → Int) (u : Table) (row : Cells V) : Cells V :=
  List.zipWith (fun c cell => match c.references?, cell with
    | some target, some (.id n) => some (.id (rename target n))
    | _, cell => cell) u.columns row

/-- One database becomes another when ids are renamed, and rows put in another order. -/
structure Renames (rename : String → Int → Int) (db db' : Database V) : Prop where
  injective : ∀ u ∈ m.tables, u.kind = .entity → ∀ row ∈ db.rowsOf u.name, ∀ row' ∈ db.rowsOf u.name, ∀ n n',
    (stored vs u).idOf? row = some n → (stored vs u).idOf? row' = some n' → rename u.name n = rename u.name n' → n = n'
  entities : ∀ u ∈ m.tables, u.kind = .entity → ∃ rows, rows.Perm (db'.rowsOf u.name) ∧
    List.Forall₂ (fun row row' => (stored vs u).Agree vs row row' ∧
      (stored vs u).idOf? row' = ((stored vs u).idOf? row).map (rename u.name)) (db.rowsOf u.name) rows
  ids : ∀ u ∈ m.tables, u.kind = .junction ∨ u.kind = .relationships →
    ((db.rowsOf u.name).map (renamedRow rename u)).Perm (db'.rowsOf u.name)

open Classical in
noncomputable def idIn (db db' : Database V) (type : String) (n : Int) : Int :=
  if h : ∃ k l, l.type = type ∧ db.idAt vs l = some n ∧ db'.idAt vs l = some k then h.choose else n

variable {vs m} {db db' : Database V} (compiles : m.Compiles) (ideal : vs.Ideal)

section Ids

variable (before : Consistent vs m db) (after : Consistent vs m db') {u : Table} {l l' : Label}
include compiles ideal before after

/-- Nodes with one id in a database have one id in another. -/
theorem idAt_determined (table : m.TableFor l.type u) (table' : m.TableFor l'.type u) {n k k' : Int}
    (id : db.idAt vs l = some n) (id' : db.idAt vs l' = some n) (other : db'.idAt vs l = some k)
    (other' : db'.idAt vs l' = some k') : k = k' := by
  obtain ⟨r, hr, carried, number⟩ := idAt_row compiles before.there table id
  obtain ⟨r', hr', carried', number'⟩ := idAt_row compiles before.there table' id'
  obtain ⟨s, hs, held, numbered⟩ := idAt_row compiles after.there table other
  obtain ⟨s', hs', held', numbered'⟩ := idAt_row compiles after.there table' other'
  obtain ⟨_, _, _, _, rows⟩ := before.entities u table.mem table.kind
  obtain ⟨_, _, _, _, rows'⟩ := after.entities u table.mem table.kind
  -- One id is one row, which carries the attributes of both nodes; so does the row that agrees with it elsewhere.
  obtain rfl : r = r' := List.inj_on_of_nodup_map rows.apart hr hr' (number.trans number'.symm)
  have agree := StoredTable.agree_of_carries ideal (rows.holds r hr) (rows'.holds s hs) carried held
  have both := agree.carries ideal (rows.holds r hr) (rows'.holds s hs) carried'
  obtain rfl : s = s' := rows'.row_unique ideal hs hs' both held'
  exact Option.some.inj (numbered.symm.trans numbered')

theorem idIn_eq (table : m.TableFor l.type u) {n k : Int} (id : db.idAt vs l = some n)
    (other : db'.idAt vs l = some k) : idIn vs db db' l.type n = k := by
  have found : ∃ k l', l'.type = l.type ∧ db.idAt vs l' = some n ∧ db'.idAt vs l' = some k := ⟨k, l, rfl, id, other⟩
  rw [idIn, dif_pos found]
  obtain ⟨l', type, id', other'⟩ := found.choose_spec
  exact idAt_determined compiles ideal before after (type ▸ table) table id' id other' other

theorem idAt_renamed {line : List Label} (lawful : Lawful m line) (knows : db.Knows vs line)
    (knows' : db'.Knows vs line) {l : Label} (mem : l ∈ line) :
    (db.idAt vs l).map (idIn vs db db' l.type) = db'.idAt vs l := by
  cases bears : l.bears with
  | false => rw [idAt_container bears, idAt_container bears]; rfl
  | true =>
    obtain ⟨n, id⟩ := Option.isSome_iff_exists.1 (knows l mem bears)
    obtain ⟨k, other⟩ := Option.isSome_iff_exists.1 (knows' l mem bears)
    obtain ⟨u, table⟩ := compiles.tableFor (lawful.entities l mem)
    rw [id, other, Option.map_some, idIn_eq compiles ideal before after table id other]

end Ids

/-! ### Rows of ids -/

section Rows

variable {settings settings' : LoadSettings} {x : Trail} {u : Table} {row row' : Cells V}

omit ideal in
include compiles in
theorem Origin.unique (first : Origin vs m settings x db u row) (second : Origin vs m settings x db u row')
    (ids : u.kind ≠ .entity) : row = row' := by
  cases first with
  | entity bears table carried => exact absurd table.kind ids
  | leaf bears entity name leaf table is =>
    cases second with
    | entity bears table carried => exact absurd table.kind ids
    | leaf bears' entity' name' leaf' table' is' =>
      obtain rfl := compiles.wellNamed.entity_of_text entity entity' (name.trans name'.symm)
      exact is.trans is'.symm
    | pair bears' asked entity' own first target table' above id is' =>
      rw [table] at table'
      exact nomatch congrArg Table.kind table'
  | pair bears asked entity own first target table above id is =>
    cases second with
    | entity bears table carried => exact absurd table.kind ids
    | leaf bears' entity' name' leaf' table' is' =>
      rw [table] at table'
      exact nomatch congrArg Table.kind table'
    | pair bears' asked' entity' own' first' target' table' above' id' is' =>
      rw [above] at above'
      rw [id] at id'
      obtain ⟨_, rfl⟩ := Prod.mk.inj (Option.some.inj above')
      obtain rfl := Option.some.inj id'
      exact is.trans is'.symm

theorem Origin.of_settings (origin : Origin vs m settings x db u row)
    (same : settings'.recordJunctions = settings.recordJunctions) : Origin vs m settings' x db u row := by
  cases origin with
  | entity bears table carried => exact .entity bears table carried
  | leaf bears entity name leaf table ids => exact .leaf bears entity name leaf table ids
  | pair bears asked entity own first target table above id ids =>
    exact .pair bears (same.trans asked) entity own first target table above id ids

theorem Recorded.mem_rowsOf (recorded : Recorded vs m settings db x) (origin : Origin vs m settings x db u row)
    (ids : u.kind ≠ .entity) : row ∈ db.rowsOf u.name := by
  cases origin with
  | entity bears table carried => exact absurd table.kind ids
  | leaf bears entity name leaf table is =>
    rw [table, is]
    exact recorded.leaf bears _ entity name leaf
  | pair bears asked entity own first target table above id is =>
    rw [table, is]
    exact recorded.pair bears asked _ entity _ own first target _ _ above id

variable (before : Consistent vs m db) (after : Consistent vs m db') (lawful : Lawful m x.line)
  (knows : db.Knows vs x.line) (knows' : db'.Knows vs x.line)
include compiles ideal before after lawful knows knows'

theorem surroundings_renamed {e : Entity} (he : e ∈ m.entities) :
    renamedRow (idIn vs db db') (Schema.relationships m m.hierarchy e.name) (db.surroundings vs m e x.line) =
      db'.surroundings vs m e x.line := by
  rw [surroundings_eq compiles he lawful knows, surroundings_eq compiles he lawful knows', renamedRow,
    Model.relationships_columns, nearestIds, nearestIds, List.zipWith_map, List.zipWith_self]
  refine List.map_congr_left fun type _ => ?_
  cases nearest : nearest? type x.line with
  | none => rfl
  | some l =>
    have mem : l ∈ x.line := List.mem_of_find?_eq_some nearest
    have named : l.type = type := by
      have found := List.find?_some nearest
      simp only [Bool.and_eq_true, decide_eq_true_eq] at found
      exact found.2
    have renamed := idAt_renamed compiles ideal before after lawful knows knows' mem
    rw [Option.bind_some, Option.bind_some, ← renamed, named]
    cases db.idAt vs l <;> rfl

theorem parentOf_renamed : (db.parentOf vs x.above).map (fun p => (p.1, idIn vs db db' p.1 p.2)) =
    db'.parentOf vs x.above := by
  cases eq : x.above with
  | nil => rfl
  | cons l rest =>
    have mem : l ∈ x.line := List.mem_cons_of_mem _ (eq ▸ List.mem_cons_self)
    have renamed := idAt_renamed compiles ideal before after lawful knows knows' mem
    simp only [parentOf, List.head?_cons, Option.bind_some, ← renamed, Option.map_map]
    rfl

theorem Origin.renamed (origin : Origin vs m settings x db u row) (ids : u.kind ≠ .entity) :
    Origin vs m settings x db' u (renamedRow (idIn vs db db') u row) := by
  cases origin with
  | entity bears table carried => exact absurd table.kind ids
  | leaf bears entity name leaf table is =>
    rw [is, table, surroundings_renamed compiles ideal before after lawful knows knows' entity]
    exact .leaf bears entity name leaf rfl rfl
  | @pair e r parent child bears asked entity own first target table above id is =>
    have renamed := idAt_renamed compiles ideal before after lawful knows knows' List.mem_cons_self
    have parentRenamed := parentOf_renamed compiles ideal before after lawful knows knows'
    rw [above, Option.map_some] at parentRenamed
    rw [id, Option.map_some, ← target] at renamed
    rw [table, is]
    exact .pair bears asked entity own first target rfl parentRenamed.symm renamed.symm rfl

end Rows

/-! ### The same trees -/

/-- Loads have the same trees, and record pairs for the same of them. -/
structure SameTrees (calls calls' : List LoadCall) : Prop where
  left : ∀ c ∈ calls, ∃ c' ∈ calls', c'.tree = c.tree ∧ c'.settings.recordJunctions = c.settings.recordJunctions
  right : ∀ c ∈ calls', ∃ c' ∈ calls, c'.tree = c.tree ∧ c'.settings.recordJunctions = c.settings.recordJunctions

variable {calls calls' : List LoadCall} {u : Table} {row : Cells V}

theorem SameTrees.symm (same : SameTrees calls calls') : SameTrees calls' calls := ⟨same.right, same.left⟩

theorem SameTrees.bearing (same : SameTrees calls calls') {x : Trail} (bearing : BearingIn calls x) :
    BearingIn calls' x := by
  obtain ⟨bears, c, hc, hx⟩ := bearing
  obtain ⟨c', hc', tree, _⟩ := same.left c hc
  exact ⟨bears, c', hc', tree ▸ hx⟩

section Contents

variable (contents : Contents vs m calls db) (contents' : Contents vs m calls' db') (same : SameTrees calls calls')
include compiles ideal contents contents' same

/-- A row of ids becomes a row of the other database, from which it can be got back. -/
theorem Contents.renamed (mem : u ∈ m.tables) (data : u.kind ≠ .registry) (ids : u.kind ≠ .entity)
    (hrow : row ∈ db.rowsOf u.name) : renamedRow (idIn vs db db') u row ∈ db'.rowsOf u.name ∧
      renamedRow (idIn vs db' db) u (renamedRow (idIn vs db db') u row) = row := by
  obtain ⟨c, hc, x, hx, origin⟩ := contents.origin u mem data row hrow
  obtain ⟨c', hc', tree, settings⟩ := same.left c hc
  have hx' : x ∈ c'.tree.trails := tree ▸ hx
  have lawful := contents.lawful c hc x hx
  have knows := (contents.recorded c hc x hx).known
  have recorded := contents'.recorded c' hc' x hx'
  have there := origin.renamed compiles ideal contents.consistent contents'.consistent lawful knows recorded.known ids
  have back := there.renamed compiles ideal contents'.consistent contents.consistent lawful recorded.known knows ids
  exact ⟨recorded.mem_rowsOf (there.of_settings settings) ids, back.unique compiles origin ids⟩

theorem Contents.ids_renamed (mem : u ∈ m.tables) (kind : u.kind = .junction ∨ u.kind = .relationships) :
    ((db.rowsOf u.name).map (renamedRow (idIn vs db db') u)).Perm (db'.rowsOf u.name) := by
  have data : u.kind ≠ .registry := by rcases kind with kind | kind <;> rw [kind] <;> decide
  have ids : u.kind ≠ .entity := by rcases kind with kind | kind <;> rw [kind] <;> decide
  have forth {row : Cells V} (hrow : row ∈ db.rowsOf u.name) :=
    contents.renamed compiles ideal contents' same mem data ids hrow
  have back {row : Cells V} (hrow : row ∈ db'.rowsOf u.name) :=
    contents'.renamed compiles ideal contents same.symm mem data ids hrow
  have distinct := (contents.consistent.ids u mem kind).distinct
  have distinct' := (contents'.consistent.ids u mem kind).distinct
  have injective : ((db.rowsOf u.name).map (renamedRow (idIn vs db db') u)).Nodup := by
    refine List.Nodup.map_on (fun r hr r' hr' eq => ?_) distinct
    rw [← (forth hr).2, eq, (forth hr').2]
  refine (List.perm_ext_iff_of_nodup injective distinct').2 fun row => ?_
  rw [List.mem_map]
  constructor
  · rintro ⟨r, hr, rfl⟩
    exact (forth hr).1
  · intro hrow
    exact ⟨_, (back hrow).1, (back hrow).2⟩

section Entities

variable (mem : u ∈ m.tables) (kind : u.kind = .entity)
include mem kind

theorem Contents.row_renamed (hrow : row ∈ db.rowsOf u.name) : ∃ row' ∈ db'.rowsOf u.name,
    (stored vs u).Agree vs row row' ∧
      (stored vs u).idOf? row' = ((stored vs u).idOf? row).map (idIn vs db db' u.name) := by
  obtain ⟨_, rows⟩ := contents.entityRows mem kind
  obtain ⟨_, rows'⟩ := contents'.entityRows mem kind
  obtain ⟨x, bearing, table, carried⟩ := contents.node_of mem kind hrow
  obtain ⟨own, hown, held, number⟩ := contents.row_of compiles bearing table
  obtain ⟨row', hrow', carried', number'⟩ := contents'.row_of compiles (same.bearing bearing) table
  obtain rfl := rows.row_unique ideal hown hrow held carried
  have agree := StoredTable.agree_of_carries ideal (rows.holds own hown) (rows'.holds row' hrow') carried carried'
  have renamed := idAt_renamed compiles ideal contents.consistent contents'.consistent (contents.lawful_of bearing)
    (contents.knows bearing) (contents'.knows (same.bearing bearing)) List.mem_cons_self
  refine ⟨row', hrow', agree, number'.trans ?_⟩
  rw [table.name, ← renamed]
  exact congrArg (Option.map _) number.symm

theorem Contents.renamed_injective {row' : Cells V} (hrow : row ∈ db.rowsOf u.name) (hrow' : row' ∈ db.rowsOf u.name)
    {n n' : Int} (number : (stored vs u).idOf? row = some n) (number' : (stored vs u).idOf? row' = some n')
    (eq : idIn vs db db' u.name n = idIn vs db db' u.name n') : n = n' := by
  obtain ⟨s, hs, agree, id⟩ := contents.row_renamed compiles ideal contents' same mem kind hrow
  obtain ⟨s', hs', agree', id'⟩ := contents.row_renamed compiles ideal contents' same mem kind hrow'
  obtain ⟨_, rows⟩ := contents.entityRows mem kind
  obtain ⟨_, rows'⟩ := contents'.entityRows mem kind
  rw [number, Option.map_some] at id
  rw [number', Option.map_some, ← eq, ← id] at id'
  -- Both rows agree with one row of the other database, and so carry the attributes of one node.
  obtain rfl := List.inj_on_of_nodup_map rows'.apart hs' hs id'
  obtain ⟨x, _, _, carried⟩ := contents.node_of mem kind hrow
  have held := agree.carries ideal (rows.holds row hrow) (rows'.holds s' hs') carried
  have back := agree'.symm ideal (rows.holds row' hrow') (rows'.holds s' hs')
  have carried' := back.carries ideal (rows'.holds s' hs') (rows.holds row' hrow') held
  obtain rfl := rows.row_unique ideal hrow hrow' carried carried'
  exact Option.some.inj (number.symm.trans number')

theorem Contents.entities_renamed : ∃ rows, rows.Perm (db'.rowsOf u.name) ∧
    List.Forall₂ (fun row row' => (stored vs u).Agree vs row row' ∧
      (stored vs u).idOf? row' = ((stored vs u).idOf? row).map (idIn vs db db' u.name)) (db.rowsOf u.name) rows := by
  have each : ∀ row ∈ db.rowsOf u.name, ∃ row', row' ∈ db'.rowsOf u.name ∧ (stored vs u).Agree vs row row' ∧
      (stored vs u).idOf? row' = ((stored vs u).idOf? row).map (idIn vs db db' u.name) := fun row hrow =>
    contents.row_renamed compiles ideal contents' same mem kind hrow
  choose! f inside agree number using each
  obtain ⟨_, rows⟩ := contents.entityRows mem kind
  obtain ⟨_, rows'⟩ := contents'.entityRows mem kind
  refine ⟨(db.rowsOf u.name).map f, ?_, ?_⟩
  · have distinct : ((db.rowsOf u.name).map f).Nodup := by
      refine List.Nodup.map_on (fun r hr r' hr' eq => ?_) rows.apart.of_map
      obtain ⟨n, id, _⟩ := rows.numbered r hr
      obtain ⟨n', id', _⟩ := rows.numbered r' hr'
      have left : (stored vs u).idOf? (f r) = some _ := (number r hr).trans (congrArg (Option.map _) id)
      have right : (stored vs u).idOf? (f r') = some _ := (number r' hr').trans (congrArg (Option.map _) id')
      rw [eq, right] at left
      obtain rfl := contents.renamed_injective compiles ideal contents' same mem kind hr hr' id id'
        (Option.some.inj left).symm
      exact List.inj_on_of_nodup_map rows.apart hr hr' (id.trans id'.symm)
    refine (List.perm_ext_iff_of_nodup distinct rows'.apart.of_map).2 fun row' => ?_
    rw [List.mem_map]
    constructor
    · rintro ⟨r, hr, rfl⟩
      exact inside r hr
    · intro hrow'
      obtain ⟨x, bearing, table, carried'⟩ := contents'.node_of mem kind hrow'
      obtain ⟨row, hrow, carried, _⟩ := contents.row_of compiles (same.symm.bearing bearing) table
      have held := (agree row hrow).carries ideal (rows.holds row hrow) (rows'.holds _ (inside row hrow)) carried
      exact ⟨row, hrow, rows'.row_unique ideal (inside row hrow) hrow' held carried'⟩
  · rw [List.forall₂_map_right_iff, List.forall₂_same]
    exact fun row hrow => ⟨agree row hrow, number row hrow⟩

end Entities

/-- After the same trees the one database is the other with ids renamed. -/
theorem Contents.renames : Renames vs m (idIn vs db db') db db' where
  injective := fun _ mem kind _ hrow _ hrow' _ _ number number' eq =>
    contents.renamed_injective compiles ideal contents' same mem kind hrow hrow' number number' eq
  entities := fun _ mem kind => contents.entities_renamed compiles ideal contents' same mem kind
  ids := fun _ mem kind => contents.ids_renamed compiles ideal contents' same mem kind

end Contents

def LoadCall.content (c : LoadCall) : Bool × Tree := (c.settings.recordJunctions, c.tree)

theorem sameTrees_of_perm (perm : (calls'.map LoadCall.content).Perm (calls.map LoadCall.content)) :
    SameTrees calls calls' := by
  have found {cs ds : List LoadCall} (perm : (ds.map LoadCall.content).Perm (cs.map LoadCall.content)) :
      ∀ c ∈ cs, ∃ d ∈ ds, d.tree = c.tree ∧ d.settings.recordJunctions = c.settings.recordJunctions := by
    intro c mem
    obtain ⟨d, hd, eq⟩ := List.mem_map.1 (perm.mem_iff.2 (List.mem_map_of_mem mem))
    obtain ⟨settings, tree⟩ := Prod.mk.inj eq
    exact ⟨d, hd, tree, settings⟩
  exact ⟨found perm, found perm.symm⟩

/-- After loads that have all succeeded the table of each entity holds one row for every assignment of values that
a node of the entity carries, and no other row. Had the trees been loaded in another order, by whichever loaders,
the database would be the same but for the ids and the order of rows. -/
theorem entities_exact (ideal : vs.Ideal) (enforce : Bool) {schema : Schema}
    (compiled : Schema.ofModel m = .ok schema) {calls : List LoadCall} (rooted : ∀ c ∈ calls, c.tree.RootedIn m)
    (all : (LoadState.founded vs enforce schema).AllLoad vs enforce calls) :
    let db := ((LoadState.founded vs enforce schema).loads vs enforce calls).database
    (∀ e ∈ m.entities, ∃ t, db.table? e.name.text = some t ∧ HoldsNodes vs m calls e.name.text t) ∧
      ∀ calls', (calls'.map LoadCall.content).Perm (calls.map LoadCall.content) →
        (LoadState.founded vs enforce schema).AllLoad vs enforce calls' →
        ∃ rename, Renames vs m rename db ((LoadState.founded vs enforce schema).loads vs enforce calls').database := by
  obtain ⟨rfl, compiles⟩ := ofModel_ok.1 compiled
  have contents := LoadState.founded_loads_contents compiles ideal enforce rooted all
  intro db
  constructor
  · intro e he
    obtain ⟨u, table⟩ := compiles.tableFor ⟨e, he, rfl⟩
    have found := contents.consistent.table? compiles table.mem
    have holds := contents.holdsNodes compiles ideal table.mem table.kind
    rw [table.name] at found holds
    exact ⟨_, found, holds⟩
  · intro calls' perm all'
    have same := sameTrees_of_perm perm
    have rooted' : ∀ c ∈ calls', c.tree.RootedIn m := by
      intro c mem
      obtain ⟨d, hd, tree, _⟩ := same.right c mem
      exact tree ▸ rooted d hd
    have contents' := LoadState.founded_loads_contents compiles ideal enforce rooted' all'
    exact ⟨_, contents.renames compiles ideal contents' same⟩

/-- A box with an item is loaded, and the item alone: they share a row, whichever comes first. -/
theorem entities_of_box :
    let db := (Sample.start.loads ColumnValue.system true [Sample.loading "7" "x", Sample.item "x"]).database
    (∃ t, db.table? "Item" = some t ∧
      HoldsNodes ColumnValue.system Sample.boxes [Sample.loading "7" "x", Sample.item "x"] "Item" t) ∧
      ∃ rename, Renames ColumnValue.system Sample.boxes rename db
        (Sample.start.loads ColumnValue.system true [Sample.item "x", Sample.loading "7" "x"]).database := by
  have rooted : ∀ c ∈ [Sample.loading "7" "x", Sample.item "x"], c.tree.RootedIn Sample.boxes := by
    intro c mem
    rcases List.mem_pair.1 mem with rfl | rfl
    · exact Sample.box_rooted "7" "x"
    · exact ⟨_, List.mem_cons_of_mem _ List.mem_cons_self, rfl⟩
  obtain ⟨holds, renamed⟩ := entities_exact ColumnValue.system_ideal true Sample.boxes_compile rooted
    Sample.box_then_item
  obtain ⟨t, found, nodes⟩ := holds _ (List.mem_cons_of_mem _ List.mem_cons_self)
  exact ⟨⟨t, found, nodes⟩, renamed _ (List.Perm.swap _ _ _) Sample.item_then_box⟩

end TreeStore
