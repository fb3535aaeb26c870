import TreeStore.Document.Source
import TreeStore.Infer
import TreeStore.Proofs.Document.Places
import TreeStore.Proofs.Json.Literals
import TreeStore.Proofs.Load.Declared
import TreeStore.Proofs.Load.EntityContents

/-! Attributes that are written as whole numbers in JSON documents: what the nodes of a tree and the nodes of an
inferred tree have for them, and that nodes with different such numbers do not share a row. -/

namespace TreeStore

open Database

/-! ### Documents with trees -/

/-- A whole number is what is written last for a key of the node at a place. -/
def Node.Writes (root : Node) (path : List Nat) (key : String) (n : Int) : Prop :=
  ∃ node, root.place? path = some node ∧
    (valuesOf key node.attributeEntries).getLast? = some (.scalar (Json.scalarOf (.int n)))

namespace Tree

/-- What a node has for an attribute that is written as a whole number: its numeral if it has 64 bits with a sign,
else that of a binary number next to it. -/
def shownInt (n : Int) : String :=
  if Numeral.isInt64 n then toString n else (Binary64.ofInt n).render .attribute

theorem readValue_int (n : Int) :
    (Node.scalar (Json.scalarOf (.int n))).readOptional readValue = .ok (some (shownInt n)) := rfl

theorem ofNode_int {root : Node} {t : Tree} {path : List Nat} {key : String} {n : Int} (read : ofNode root = .ok t)
    (writes : root.Writes path key n) :
    ∃ u, t.place? path = some u ∧ u.attributes.get? key = some (shownInt n) := by
  obtain ⟨node, there, last⟩ := writes
  obtain ⟨u, found, own⟩ := ofNode_place read there
  obtain ⟨o, value, shown⟩ := ofNode_attribute own last
  exact ⟨u, found, shown.trans (Except.ok.inj (value.symm.trans (readValue_int n)))⟩

theorem ofText_json {origin text : String} {t : Tree} (read : ofText .json origin text = .ok t) :
    ofNode (Json.read text).root = .ok t := by
  unfold ofText Format.decode Reading.decode at read
  obtain ⟨u, content, complete⟩ := bind_eq_ok.1 (mapError_eq_ok.1 (mapError_eq_ok.1 read))
  split at complete <;> cases complete
  exact content

end Tree

/-! ### Inferred trees -/

namespace Infer

theorem visitItems_attributes {entity key : Name} (items : List Json.Value) (declared : List Entity) (node : Tree) :
    (visitItems entity key declared node items).2.attributes = node.attributes := by
  induction items generalizing declared node with
  | nil => rfl
  | cons item rest ih => cases item <;> exact ih _ _

theorem visitValue_other {entity key : Name} {declared : List Entity} {node : Tree} {other : String}
    (ne : other ≠ key.text) (value : Json.Value) :
    (visitValue entity key declared node value).2.attributes.get? other = node.attributes.get? other := by
  have text (s : String) : (node.attributes.insert key.text s).get? other = node.attributes.get? other := by
    rw [TextMap.get?_insert, if_neg ne]
  cases value with
  | null | object => rfl
  | list items => exact congrArg (TextMap.get? · other) (visitItems_attributes items declared node)
  | flag | int | real | text => exact text _

theorem visitFields_other {entity : Name} {other : String} {fields : List (String × Json.Value)}
    (absent : other ∉ fields.map (·.1)) (declared : List Entity) (node : Tree) :
    (visitFields entity declared node fields).2.attributes.get? other = node.attributes.get? other := by
  induction fields generalizing declared node with
  | nil => rfl
  | cons field rest ih =>
    obtain ⟨ne, absent⟩ := not_or.1 (mt List.mem_cons.2 absent)
    rw [visitFields]
    cases named : Name.ofText? field.1 with
    | none => exact ih absent declared node
    | some key => exact (ih absent _ _).trans (visitValue_other (Name.ofText?_eq_some.1 named ▸ ne) field.2)

/-- A field with a value that may be an attribute is one of the node that is inferred from the object. -/
theorem visitFields_text {entity key : Name} {value : Json.Value} {s : String} (text : valueText? value = some s)
    {fields : List (String × Json.Value)} (once : (fields.map (·.1)).Nodup) (mem : (key.text, value) ∈ fields)
    (declared : List Entity) (node : Tree) :
    (visitFields entity declared node fields).2.attributes.get? key.text = some s := by
  induction fields generalizing declared node with
  | nil => cases mem
  | cons field rest ih =>
    obtain ⟨new, once⟩ := List.nodup_cons.1 once
    rw [visitFields]
    rcases List.mem_cons.1 mem with rfl | mem
    · have own : (visitValue entity key declared node value).2.attributes.get? key.text = some s := by
        cases value with
        | null | object | list => cases text
        | flag | int | real | text =>
          cases text
          exact (TextMap.get?_insert ..).trans (if_pos rfl)
      rw [key.ofText?_text]
      exact (visitFields_other new _ _).trans own
    · cases Name.ofText? field.1 with
      | none => exact ih once mem declared node
      | some other => exact ih once mem _ _

end Infer

/-! ### Rows of nodes that differ -/

/-- A JSON document with a tree that is loaded gives a whole number to a node, for the column of a name, and no other
key of the node is that name in another case. -/
def GivenIn (calls : List LoadCall) (l : Label) (name : String) (n : Int) : Prop :=
  ∃ c ∈ calls, ∃ origin text path key u, Tree.ofText .json origin text = .ok c.tree ∧
    (Json.read text).root.Writes path key n ∧ c.tree.place? path = some u ∧ u.label = l ∧
    ∀ k ∈ l.attributes.keys, Text.sameIgnoringCase k name = true ↔ k = key

namespace Tree

theorem trailsBelow_child (path : NodePath) (above : List Label) (index : Nat) {i : Nat} {ts : List Tree} {c : Tree}
    (there : ts[i]? = some c) : ∃ path', ∀ x ∈ c.trailsAt path' above, x ∈ trailsBelow path above index ts := by
  induction ts generalizing index i with
  | nil => cases there
  | cons t rest ih =>
    rw [trailsBelow]
    cases i with
    | zero =>
      cases there
      exact ⟨_, fun x mem => List.mem_append_left _ mem⟩
    | succ i =>
      obtain ⟨path', all⟩ := ih (index + 1) there
      exact ⟨path', fun x mem => List.mem_append_right _ (all x mem)⟩

theorem trailsAt_place (path : NodePath) (above : List Label) {t u : Tree} {place : List Nat}
    (found : t.place? place = some u) : ∃ x ∈ t.trailsAt path above, x.node = u.label := by
  induction place generalizing t path above with
  | nil =>
    cases found
    cases u
    exact ⟨_, List.mem_cons_self, rfl⟩
  | cons i rest ih =>
    obtain ⟨c, there, below⟩ := Option.bind_eq_some_iff.1 found
    cases t with
    | mk type attributes children =>
      obtain ⟨path', all⟩ := trailsBelow_child path (⟨type, attributes⟩ :: above) 0 there
      obtain ⟨x, mem, same⟩ := ih path' (⟨type, attributes⟩ :: above) below
      exact ⟨x, List.mem_cons_of_mem _ (all x mem), same⟩

end Tree

theorem GivenIn.bearing {calls : List LoadCall} {l : Label} {name : String} {n : Int} (given : GivenIn calls l name n)
    {c : CatalogColumn} (named : c.name = name) :
    (∃ x, BearingIn calls x ∧ x.node = l) ∧ Loader.valueFor? l.attributes c = some (Tree.shownInt n) := by
  obtain ⟨call, mem, origin, text, path, key, u, read, writes, found, rfl, only⟩ := given
  obtain ⟨u', found', shown⟩ := Tree.ofNode_int (Tree.ofText_json read) writes
  cases found.symm.trans found'
  obtain ⟨x, inside, same⟩ := Tree.trailsAt_place ⟨call.tree.type, []⟩ [] found
  have bears : u.label.bears = true := by
    cases none : u.attributes.isEmpty with
    | false => exact congrArg (!·) none
    | true =>
      rw [TextMap.eq_empty none] at shown
      cases shown
  exact ⟨⟨x, ⟨same ▸ bears, call, mem, inside⟩, same⟩, valueFor?_only shown (named ▸ only)⟩

/-- Different whole numbers of 64 bits with a sign, given to nodes for an attribute of a kind that tells them apart,
mean different rows. -/
theorem Contents.given_apart {V : Type} {vs : ValueSystem V} {m : Model} {calls : List LoadCall} {db : Database V}
    (contents : Contents vs m calls db) (compiles : m.Compiles) (ideal : vs.Ideal) {e : Entity} (he : e ∈ m.entities)
    {a : Attribute} (ha : a ∈ e.attributes) (tells : vs.TellsWhole a.kind) {l l' : Label} (type : l.type = e.name.text)
    (type' : l'.type = e.name.text) {n k : Int} (given : GivenIn calls l a.name.text n)
    (given' : GivenIn calls l' a.name.text k) (fits : Numeral.isInt64 n = true) (fits' : Numeral.isInt64 k = true)
    (ne : n ≠ k) : ∃ i j, db.idAt vs l = some i ∧ db.idAt vs l' = some j ∧ i ≠ j := by
  obtain ⟨created, mem⟩ := compiles.entityTable_mem he
  obtain ⟨c, column, name, kind⟩ : ∃ c ∈ (stored vs (Schema.entityTable created e)).columns,
      c.name = a.name.text ∧ c.type = catalogType vs a.kind.columnType := attribute_column ha
  obtain ⟨⟨x, bearing, rfl⟩, value⟩ := given.bearing (c := c.inCatalog) name
  obtain ⟨⟨y, bearing', rfl⟩, value'⟩ := given'.bearing (c := c.inCatalog) name
  obtain ⟨i, id⟩ := contents.id_of bearing
  obtain ⟨j, id'⟩ := contents.id_of bearing'
  refine ⟨i, j, id, id', fun equal => ?_⟩
  refine contents.idAt_ne compiles ideal bearing bearing' (type.trans type'.symm) (u := Schema.entityTable created e)
    ⟨mem, rfl, type.symm⟩ column value value' ?_ (id.trans (equal ▸ id'.symm))
  rw [Tree.shownInt, Tree.shownInt, if_pos fits, if_pos fits', kind]
  exact fun v v' read read' => tells n k v v' fits fits' ne read read'

namespace Sample

def beforeName : String := "\x7b\"type\":\"Item\",\"attributes\":\x7b\"n\":"

def afterName : String := "\x7d\x7d"

def itemText (n : Int) : String := beforeName ++ toString n ++ afterName

def itemNode (n : Int) : Node :=
  .dict false
    [(.ofText "type", .ofText "Item"),
      (.ofText "attributes", .dict false [(.ofText "n", .scalar (Json.scalarOf (.int n)))])]

theorem read_itemText {n : Int} (whole : Json.Whole64 n) : Json.read (itemText n) = ⟨itemNode n, true⟩ := by
  have chars : (itemText n).toList = beforeName.toList ++ ((toString n).toList ++ afterName.toList) := by
    rw [itemText, String.toList_append, String.toList_append, List.append_assoc]
  have start (cs : List Char) : Json.Token.scan .between (beforeName.toList ++ cs) =
      [.openDict, .value (.text "type"), .colon, .value (.text "Item"), .comma, .value (.text "attributes"), .colon,
        .openDict, .value (.text "n"), .colon] ++ Json.Token.scan .between cs := rfl
  have ends : ∀ c ∈ afterName.toList.head?, Json.Token.isNumberChar c = false := by
    rintro c ⟨⟩
    rfl
  rw [Json.read, Json.Token.ofText, chars, start, Json.Token.scan_literal whole ends]
  rfl

theorem itemText_tree {n : Int} (whole : Json.Whole64 n) (origin : String) :
    Tree.ofText .json origin (itemText n) = .ok (item (Tree.shownInt n)).tree := by
  unfold Tree.ofText Format.decode Reading.decode
  dsimp only
  rw [read_itemText whole]
  rfl

theorem itemText_writes {n : Int} (whole : Json.Whole64 n) : (Json.read (itemText n)).root.Writes [] "n" n := by
  rw [read_itemText whole]
  exact ⟨_, rfl, rfl⟩

theorem item_given {n : Int} (whole : Json.Whole64 n) {calls : List LoadCall} (mem : item (Tree.shownInt n) ∈ calls) :
    GivenIn calls (item (Tree.shownInt n)).tree.label "n" n := by
  refine ⟨_, mem, "items", itemText n, [], "n", _, itemText_tree whole _, itemText_writes whole, rfl, rfl, ?_⟩
  intro k own
  obtain rfl : k = "n" := List.mem_singleton.1 own
  exact ⟨fun _ => rfl, fun _ => Text.sameIgnoringCase_self "n"⟩

theorem item_rooted (n : String) : (item n).tree.RootedIn boxes :=
  ⟨_, List.mem_cons_of_mem _ List.mem_cons_self, rfl⟩

/-- Items that are named by two whole numbers next to each other, which are one binary number. -/
def neighbours : List LoadCall := [item "9007199254740993", item "9007199254740992"]

theorem neighbours_rooted : ∀ c ∈ neighbours, c.tree.RootedIn boxes := by
  intro c mem
  rcases List.mem_pair.1 mem with rfl | rfl
  · exact item_rooted _
  · exact item_rooted _

theorem neighbours_load : start.AllLoad ColumnValue.system true neighbours := by
  refine ⟨⟨{ rowsInserted := 1, relationshipsInserted := 1 }, ?_⟩,
    ⟨{ rowsInserted := 1, relationshipsInserted := 1 }, ?_⟩, trivial⟩
  · decide +kernel
  · decide +kernel

end Sample

/-! ### Whole numbers in documents -/

/-- Whole numbers of 64 bits, with or without a sign, that JSON documents give. The literal is one token; a tree has
the numeral for it if the number has 64 bits with a sign, and else a binary number next to it; an inferred tree always
has the numeral. Different numbers of 64 bits with a sign are different texts, and nodes to which they are given for an
attribute have different rows, unless the attribute is declared to be a binary number. -/
theorem integers_shown {n : Int} (whole : Json.Whole64 n) :
    (∀ rest : List Char, (∀ c ∈ rest.head?, Json.Token.isNumberChar c = false) →
      Json.Token.scan .between ((toString n).toList ++ rest) = .value (.int n) :: Json.Token.scan .between rest) ∧
    (∀ (origin text : String) (t : Tree) (path : List Nat) (key : String), Tree.ofText .json origin text = .ok t →
      (Json.read text).root.Writes path key n → ∃ u, t.place? path = some u ∧ u.attributes.get? key =
        some (if Numeral.isInt64 n then toString n else (Binary64.ofInt n).render .attribute)) ∧
    (∃ value, Json.Value.ofNode (.scalar (Json.scalarOf (.int n))) = .ok value ∧
      ∀ (entity key : Name) (declared : List Entity) (node : Tree) (fields : List (String × Json.Value)),
        (fields.map (·.1)).Nodup → (key.text, value) ∈ fields →
        (Infer.visitFields entity declared node fields).2.attributes.get? key.text = some (toString n)) ∧
    (Numeral.isInt64 n = true → ∀ k, Numeral.isInt64 k = true → n ≠ k → toString n ≠ toString k ∧
      ∀ {V : Type} (vs : ValueSystem V), vs.Ideal → (∀ kind ≠ .real, vs.TellsWhole kind) →
        ∀ (enforce : Bool) (m : Model) (schema : Schema), Schema.ofModel m = .ok schema →
        ∀ calls : List LoadCall, (∀ c ∈ calls, c.tree.RootedIn m) →
        (LoadState.founded vs enforce schema).AllLoad vs enforce calls →
        ∀ e ∈ m.entities, ∀ a ∈ e.attributes, a.kind ≠ .real → ∀ l l' : Label, l.type = e.name.text →
        l'.type = e.name.text → GivenIn calls l a.name.text n → GivenIn calls l' a.name.text k →
        let db := ((LoadState.founded vs enforce schema).loads vs enforce calls).database
        ∃ i j, db.idAt vs l = some i ∧ db.idAt vs l' = some j ∧ i ≠ j) := by
  refine ⟨fun rest ends => Json.Token.scan_literal whole ends, fun origin text t path key read writes => ?_,
    ⟨.int n, rfl, fun entity key declared node fields once mem => ?_⟩, fun fits k fits' ne => ⟨?_, ?_⟩⟩
  · exact Tree.ofNode_int (Tree.ofText_json read) writes
  · exact Infer.visitFields_text rfl once mem declared node
  · exact fun same => ne (ColumnValue.toString_inj same)
  · intro V vs ideal tells enforce m schema compiled calls rooted all e he a ha other l l' type type' given given'
    obtain ⟨rfl, compiles⟩ := ofModel_ok.1 compiled
    have contents := LoadState.founded_loads_contents compiles ideal enforce rooted all
    exact contents.given_apart compiles ideal he ha (tells a.kind other) type type' given given' fits fits' ne

theorem integers_shown_items :
    Json.Token.scan .between ((toString (9007199254740993 : Int)).toList ++ [',']) =
      [.value (.int 9007199254740993), .comma] ∧
    (∃ u, (Sample.item "9007199254740993").tree.place? [] = some u ∧
      u.attributes.get? "n" = some "9007199254740993") ∧
    (∀ entity key : Name, (Infer.visitFields entity [] (Infer.emptyNode entity)
      [(key.text, .int 9007199254740993)]).2.attributes.get? key.text = some "9007199254740993") ∧
    let db := (Sample.start.loads ColumnValue.system true Sample.neighbours).database
    ∃ i j, db.idAt ColumnValue.system (Sample.item "9007199254740993").tree.label = some i ∧
      db.idAt ColumnValue.system (Sample.item "9007199254740992").tree.label = some j ∧ i ≠ j := by
  have whole : Json.Whole64 9007199254740993 := ⟨by decide, by decide⟩
  have whole' : Json.Whole64 9007199254740992 := ⟨by decide, by decide⟩
  have text : Tree.shownInt 9007199254740993 = "9007199254740993" := by decide +kernel
  have text' : Tree.shownInt 9007199254740992 = "9007199254740992" := by decide +kernel
  obtain ⟨token, shown, ⟨value, read, inferred⟩, apart⟩ := integers_shown whole
  cases read
  refine ⟨token [','] (by rintro c ⟨⟩; rfl), ?_, fun entity key => ?_, ?_⟩
  · exact shown "items" _ _ [] "n" (text ▸ Sample.itemText_tree whole "items") (Sample.itemText_writes whole)
  · exact inferred entity key [] _ _ (List.nodup_singleton _) List.mem_cons_self
  · exact (apart (by decide) _ (by decide) (by decide)).2 ColumnValue.system ColumnValue.system_ideal
      (fun _ other => ColumnValue.tellsWhole other) true Sample.boxes _ Sample.boxes_compile _ Sample.neighbours_rooted
      Sample.neighbours_load _ (List.mem_cons_of_mem _ List.mem_cons_self) _ List.mem_cons_self (by decide) _ _ rfl rfl
      (text ▸ Sample.item_given whole List.mem_cons_self)
      (text' ▸ Sample.item_given whole' (List.mem_cons_of_mem _ List.mem_cons_self))

/-- The two largest numbers of 64 bits without a sign name one item in a tree, and so one row, though an inferred tree
would have their numerals. -/
theorem largest_merged :
    (Json.Whole64 18446744073709551615 ∧ Json.Whole64 18446744073709551614) ∧
    (∀ n ∈ [18446744073709551615, 18446744073709551614], (Json.read (Sample.itemText n)).root.Writes [] "n" n ∧
      Tree.ofText .json "items" (Sample.itemText n) = .ok (Sample.item "18446744073709552000").tree ∧
      Infer.valueText? (Json.Value.ofDatum (.int n)) = some (toString n)) ∧
    Sample.start.AllLoad ColumnValue.system true
      [Sample.item "18446744073709552000", Sample.item "18446744073709552000"] ∧
    ((Sample.start.loads ColumnValue.system true [Sample.item "18446744073709552000",
      Sample.item "18446744073709552000"]).database.rowsOf "Item").length = 1 := by
  have whole : ∀ n ∈ [18446744073709551615, 18446744073709551614], Json.Whole64 n := by
    unfold Json.Whole64
    decide
  have text : ∀ n ∈ [18446744073709551615, 18446744073709551614], Tree.shownInt n = "18446744073709552000" := by
    decide +kernel
  refine ⟨⟨whole _ (by decide), whole _ (by decide)⟩,
    fun n mem => ⟨Sample.itemText_writes (whole n mem), ?_, rfl⟩, ?_, ?_⟩
  · rw [← text n mem]
    exact Sample.itemText_tree (whole n mem) "items"
  · refine ⟨⟨{ rowsInserted := 1, relationshipsInserted := 1 }, ?_⟩,
      ⟨{ rowsReused := 1, relationshipsSkipped := 1 }, ?_⟩, trivial⟩
    · decide +kernel
    · decide +kernel
  · decide +kernel

end TreeStore
