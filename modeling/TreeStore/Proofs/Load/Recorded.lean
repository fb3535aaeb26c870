import TreeStore.Proofs.Load.Node

/-! Nodes that have been loaded. A node that is recorded in a database stays so, whatever is loaded afterwards,
and loading it for another time leaves the database as it is: it is reused, and its surroundings and its pair are
skipped. -/

namespace TreeStore

open Database Loader

namespace LoadReport

/-- The counts of a load once all it inserts is there. -/
def settled (r : LoadReport) : LoadReport where
  rowsInserted := 0
  rowsReused := r.rowsInserted + r.rowsReused
  containers := r.containers
  relationshipsInserted := 0
  relationshipsSkipped := r.relationshipsInserted + r.relationshipsSkipped
  junctionsInserted := 0
  junctionsSkipped := r.junctionsInserted + r.junctionsSkipped

/-- The counts after a node that is loaded for another time. -/
def again (m : Model) (settings : LoadSettings) (r : LoadReport) (x : Trail) : LoadReport :=
  if x.node.bears then
    let r := { r with rowsReused := r.rowsReused + 1 }
    let r := if m.hierarchy.isLeaf x.node.type then noteRelationship false r else r
    if settings.recordJunctions && x.above.head?.any Label.bears then noteJunction false r else r
  else { r with containers := r.containers + 1 }

def nodes (r : LoadReport) : Nat := r.rowsInserted + r.rowsReused + r.containers

theorem nodes_settled (r : LoadReport) : r.settled.nodes = r.nodes := by simp [nodes, settled]

theorem nodes_again (m : Model) (settings : LoadSettings) (r : LoadReport) (x : Trail) :
    (r.again m settings x).nodes = r.nodes + 1 := by
  unfold again
  split
  · split <;> split <;> simp only [nodes, noteRelationship, noteJunction, Bool.false_eq_true, if_false] <;> omega
  · simp only [nodes]
    omega

theorem settled_noteRelationship (new : Bool) (r : LoadReport) :
    (noteRelationship new r).settled = noteRelationship false r.settled := by
  cases new <;> simp [noteRelationship, settled] <;> omega

theorem settled_noteJunction (new : Bool) (r : LoadReport) :
    (noteJunction new r).settled = noteJunction false r.settled := by
  cases new <;> simp [noteJunction, settled] <;> omega

end LoadReport

variable {V : Type} (vs : ValueSystem V) (m : Model)

/-- All that loading a node leaves behind is there. -/
structure Recorded (settings : LoadSettings) (db : Database V) (x : Trail) : Prop where
  known : db.Knows vs x.line
  fits : x.node.bears = true → ∃ t, m.TableFor x.node.type t ∧ (stored vs t).Fits m.hierarchy x.node.attributes ∧
    (stored vs t).Castable vs m.hierarchy x.node.attributes
  leaf : x.node.bears = true → ∀ e ∈ m.entities, e.name.text = x.node.type → m.hierarchy.isLeaf e.name.text = true →
    db.surroundings vs m e x.line ∈ db.rowsOf (Schema.relationshipsTable e.name.text)
  pair : x.node.bears = true → settings.recordJunctions = true → ∀ e ∈ m.entities, ∀ r ∈ e.relations,
    m.hierarchy.relation? e.name.text r.target.text = some r.name.text → r.target.text = x.node.type →
    ∀ parent child, db.parentOf vs x.above = some (e.name.text, parent) → db.idAt vs x.node = some child →
      idRow [some parent, some child] ∈ db.rowsOf (Schema.junctionTable e.name.text r.name.text)

variable {vs m} {settings : LoadSettings} {x : Trail} {db db' : Database V} {report report' : LoadReport}

theorem Database.Grows.surroundings (grows : db.Grows db') (e : Entity) {line : List Label} (knows : db.Knows vs line) :
    db'.surroundings vs m e line = db.surroundings vs m e line := by
  rw [Database.surroundings, Database.surroundings, grows.contextOf knows]

theorem Recorded.grows (recorded : Recorded vs m settings db x) (grows : db.Grows db') :
    Recorded vs m settings db' x where
  known := grows.knows recorded.known
  fits := recorded.fits
  leaf := fun bears e he name leaf => by
    rw [grows.surroundings e recorded.known]
    exact grows.mem_rowsOf (recorded.leaf bears e he name leaf)
  pair := fun bears asked e he r hr first target parent child above id => by
    rw [grows.parentOf recorded.known.tail] at above
    rw [grows.idAt (recorded.known x.node List.mem_cons_self)] at id
    exact grows.mem_rowsOf (recorded.pair bears asked e he r hr first target parent child above id)

theorem parentOf_isSome {above : List Label} (knows : db.Knows vs above) :
    (db.parentOf vs above).isSome = above.head?.any Label.bears := by
  cases above with
  | nil => rfl
  | cons l rest =>
    rw [parentOf, List.head?_cons, Option.bind_some, Option.isSome_map, Option.any_some]
    cases bears : l.bears with
    | false => rw [idAt_container bears]; rfl
    | true => exact knows l List.mem_cons_self bears

/-! ### Counts -/

theorem Upserted.settled {t : Table} {attributes : TextMap String} {n : Int}
    (upserted : Upserted vs m t attributes db report n db' report') :
    report'.settled = { report.settled with rowsReused := report.settled.rowsReused + 1 } := by
  cases upserted with
  | found first number => simp [LoadReport.settled]; omega
  | added new next left => simp [LoadReport.settled]; omega

theorem Surrounded.settled (surrounded : Surrounded vs m x db report db' report') : report'.settled =
    if m.hierarchy.isLeaf x.node.type then noteRelationship false report.settled else report.settled := by
  cases surrounded with
  | inner inner => rw [inner]; rfl
  | leaf entity name leaf noted =>
    rw [← name, leaf, if_pos rfl]
    exact LoadReport.settled_noteRelationship _ _

theorem Paired.settled (knows : db.Knows vs x.above) (paired : Paired vs m settings x db report db' report') :
    report'.settled = if settings.recordJunctions && x.above.head?.any Label.bears then
      noteJunction false report.settled else report.settled := by
  rw [← parentOf_isSome knows]
  cases paired with
  | apart apart => rcases apart with apart | apart <;> simp [apart]
  | pair asked entity own first target above id noted =>
    rw [asked, above, Option.isSome_some, Bool.and_self, if_pos rfl]
    exact LoadReport.settled_noteJunction _ _

theorem NodeLoaded.settled (knows : db.Knows vs x.above) (loaded : NodeLoaded vs m settings x db report db' report') :
    report'.settled = report.settled.again m settings x := by
  cases loaded with
  | container container =>
    rw [LoadReport.again, container]
    rfl
  | bearing bears table fits castable upserted surrounded paired =>
    have above := (upserted.grows.trans surrounded.grows).knows knows
    rw [LoadReport.again, if_pos bears, paired.settled above, surrounded.settled, upserted.settled]

/-! ### Recording -/

section Recording

variable (compiles : m.Compiles)
include compiles

theorem Surrounded.recorded (surrounded : Surrounded vs m x db report db' report') (before : Consistent vs m db)
    (knows : db.Knows vs x.line) {e : Entity} (he : e ∈ m.entities) (name : e.name.text = x.node.type)
    (leaf : m.hierarchy.isLeaf e.name.text = true) :
    db'.surroundings vs m e x.line ∈ db'.rowsOf (Schema.relationshipsTable e.name.text) := by
  rw [surrounded.grows.surroundings e knows]
  cases surrounded with
  | inner inner =>
    rw [← name, leaf] at inner
    cases inner
  | leaf entity name' leaf' noted =>
    obtain rfl := compiles.wellNamed.entity_of_text entity he (name'.trans name.symm)
    have mem := Model.Compiles.relationships_mem entity leaf'
    exact Noted.mem_rowsOf (t := Schema.relationships m m.hierarchy _) compiles mem noted before.there

theorem Paired.recorded (paired : Paired vs m settings x db report db' report') (before : Consistent vs m db)
    (asked : settings.recordJunctions = true) {e : Entity} {r : Relation}
    (first : m.hierarchy.relation? e.name.text r.target.text = some r.name.text) (target : r.target.text = x.node.type)
    {parent child : Int} (above : db.parentOf vs x.above = some (e.name.text, parent))
    (id : db.idAt vs x.node = some child) :
    idRow [some parent, some child] ∈ db'.rowsOf (Schema.junctionTable e.name.text r.name.text) := by
  cases paired with
  | apart apart =>
    rcases apart with off | none
    · rw [asked] at off; cases off
    · rw [above] at none; cases none
  | pair asked' entity own first' target' above' id' noted =>
    have mem := Model.Compiles.junction_mem entity own
    have there := Noted.mem_rowsOf (t := Schema.junction _ _) compiles mem noted before.there
    rw [above] at above'
    obtain ⟨source, rfl⟩ := Prod.mk.inj (Option.some.inj above')
    obtain rfl := Option.some.inj (id.symm.trans id')
    rw [← source, target', ← target, first] at first'
    rw [source, Option.some.inj first']
    exact there

/-- A node that is loaded is recorded. -/
theorem NodeLoaded.recorded (ideal : vs.Ideal) (loaded : NodeLoaded vs m settings x db report db' report')
    (before : Consistent vs m db) (knows : db.Knows vs x.above) : Recorded vs m settings db' x := by
  have known := loaded.knows compiles ideal before knows
  cases loaded with
  | container container =>
    refine ⟨known, ?_, ?_, ?_⟩ <;>
    · intro bears
      rw [container] at bears
      cases bears
  | bearing bears table fits castable upserted surrounded paired =>
    have first := upserted.consistent compiles table.mem ideal table.kind before fits castable
    have second := surrounded.consistent compiles first
    have id := upserted.idAt compiles ideal bears table before fits castable
    have line := upserted.knows compiles ideal bears table before fits castable knows
    have line' := surrounded.grows.knows line
    refine ⟨known, fun _ => ⟨_, table, fits, castable⟩, fun _ e he name leaf => ?_,
      fun _ asked e _ r _ first' target parent child above id => ?_⟩
    · rw [paired.grows.surroundings e line']
      exact paired.grows.mem_rowsOf (surrounded.recorded compiles first line he name leaf)
    · rw [paired.grows.parentOf line'.tail] at above
      rw [paired.grows.idAt (line' x.node List.mem_cons_self)] at id
      exact paired.recorded compiles second asked first' target above id

end Recording

/-! ### Loading for another time -/

theorem Surrounded.of_recorded (surrounded : Surrounded vs m x db report db' report')
    (recorded : Recorded vs m settings db x) (bears : x.node.bears = true) : db' = db ∧ report' =
      if m.hierarchy.isLeaf x.node.type then noteRelationship false report else report := by
  cases surrounded with
  | inner inner =>
    rw [inner]
    exact ⟨rfl, rfl⟩
  | leaf entity name leaf noted =>
    obtain ⟨rfl, rfl⟩ := noted.of_mem (recorded.leaf bears _ entity name leaf)
    rw [← name, leaf]
    exact ⟨rfl, rfl⟩

theorem Paired.of_recorded (paired : Paired vs m settings x db report db' report')
    (recorded : Recorded vs m settings db x) (bears : x.node.bears = true) : db' = db ∧ report' =
      if settings.recordJunctions && x.above.head?.any Label.bears then noteJunction false report else report := by
  rw [← parentOf_isSome recorded.known.tail]
  cases paired with
  | apart apart => rcases apart with apart | apart <;> simp [apart]
  | pair asked entity own first target above id noted =>
    obtain ⟨rfl, rfl⟩ := noted.of_mem (recorded.pair bears asked _ entity _ own first target _ _ above id)
    simp [asked, above]

/-- A node that is recorded leaves the database as it is, when it is loaded again. -/
theorem NodeLoaded.of_recorded (compiles : m.Compiles) (loaded : NodeLoaded vs m settings x db report db' report')
    (recorded : Recorded vs m settings db x) (before : Consistent vs m db) :
    db' = db ∧ report' = report.again m settings x := by
  cases loaded with
  | container container =>
    rw [LoadReport.again, container]
    exact ⟨rfl, rfl⟩
  | bearing bears table fits castable upserted surrounded paired =>
    obtain ⟨n, id⟩ := Option.isSome_iff_exists.1 (recorded.known x.node List.mem_cons_self bears)
    rw [idAt_bearing bears, ← table.name] at id
    obtain ⟨rfl, rfl, rfl⟩ := upserted.of_number compiles table.mem before id
    obtain ⟨rfl, rfl⟩ := surrounded.of_recorded recorded bears
    obtain ⟨rfl, rfl⟩ := paired.of_recorded recorded bears
    rw [LoadReport.again, if_pos bears]
    exact ⟨rfl, rfl⟩

theorem NodeRefused.not_of_recorded (compiles : m.Compiles) {enforce : Bool} {error : LoadError}
    (refused : NodeRefused vs m enforce x db error db') (recorded : Recorded vs m settings db x)
    (before : Consistent vs m db) : False := by
  cases refused with
  | mk bears table refused =>
    obtain ⟨u, table', fits, _⟩ := recorded.fits bears
    obtain rfl := table.unique compiles table'
    obtain ⟨n, id⟩ := Option.isSome_iff_exists.1 (recorded.known x.node List.mem_cons_self bears)
    rw [idAt_bearing bears, ← table.name] at id
    exact refused.not_of_number compiles table.mem table.kind before fits id

end TreeStore
