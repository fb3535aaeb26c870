import TreeStore.Proofs.Load.Recorded

/-! Where rows come from. A row that is there after a node has been loaded was there before, or it is the node's:
it carries the node's attributes, or it holds the ids on the way up from a leaf, or the ids of the node and its
parent. -/

namespace TreeStore

open Database Loader

variable {V : Type} (vs : ValueSystem V) (m : Model)

inductive Origin (settings : LoadSettings) (x : Trail) (db : Database V) (u : Table) (row : Cells V) : Prop
  | entity (bears : x.node.bears = true) (table : m.TableFor x.node.type u)
      (carried : (stored vs u).carries vs x.node.attributes row = true)
  | leaf {e : Entity} (bears : x.node.bears = true) (entity : e ∈ m.entities) (name : e.name.text = x.node.type)
      (leaf : m.hierarchy.isLeaf e.name.text = true) (table : u = Schema.relationships m m.hierarchy e.name)
      (ids : row = db.surroundings vs m e x.line)
  | pair {e : Entity} {r : Relation} {parent child : Int} (bears : x.node.bears = true)
      (asked : settings.recordJunctions = true) (entity : e ∈ m.entities) (own : r ∈ e.relations)
      (first : m.hierarchy.relation? e.name.text r.target.text = some r.name.text)
      (target : r.target.text = x.node.type) (table : u = Schema.junction e.name r)
      (above : db.parentOf vs x.above = some (e.name.text, parent)) (id : db.idAt vs x.node = some child)
      (ids : row = idRow [some parent, some child])

variable {vs m} {settings : LoadSettings} {x : Trail} {db db' : Database V} {report report' : LoadReport}
  {u : Table} {row : Cells V}

theorem Origin.grows (origin : Origin vs m settings x db u row) (grows : db.Grows db') (knows : db.Knows vs x.line) :
    Origin vs m settings x db' u row := by
  cases origin with
  | entity bears table carried => exact .entity bears table carried
  | leaf bears entity name leaf table ids =>
    rw [← grows.surroundings _ knows] at ids
    exact .leaf bears entity name leaf table ids
  | pair bears asked entity own first target table above id ids =>
    rw [← grows.parentOf knows.tail] at above
    rw [← grows.idAt (knows x.node List.mem_cons_self)] at id
    exact .pair bears asked entity own first target table above id ids

section Steps

variable (compiles : m.Compiles) (hu : u ∈ m.tables)
include compiles hu

theorem Surrounded.origin (settings : LoadSettings) (surrounded : Surrounded vs m x db report db' report')
    (there : LaysOut vs m db)
    (bears : x.node.bears = true) (known : db.Knows vs x.line) (mem : row ∈ db'.rowsOf u.name) :
    row ∈ db.rowsOf u.name ∨ Origin vs m settings x db' u row := by
  have grows := surrounded.grows
  cases surrounded with
  | inner inner => exact .inl mem
  | leaf entity name leaf noted =>
    have table := Model.Compiles.relationships_mem entity leaf
    rcases Noted.rowsOf (t := Schema.relationships m m.hierarchy _) compiles table noted there hu mem with
      old | ⟨rfl, rfl⟩
    · exact .inl old
    · exact .inr (.leaf bears entity name leaf rfl (grows.surroundings _ known).symm)

theorem Paired.origin (paired : Paired vs m settings x db report db' report') (there : LaysOut vs m db)
    (bears : x.node.bears = true) (known : db.Knows vs x.line) (mem : row ∈ db'.rowsOf u.name) :
    row ∈ db.rowsOf u.name ∨ Origin vs m settings x db' u row := by
  have grows := paired.grows
  cases paired with
  | apart apart => exact .inl mem
  | pair asked entity own first target above id noted =>
    have table := Model.Compiles.junction_mem entity own
    rcases Noted.rowsOf (t := Schema.junction _ _) compiles table noted there hu mem with old | ⟨rfl, rfl⟩
    · exact .inl old
    · rw [← grows.parentOf known.tail] at above
      rw [← grows.idAt (known x.node List.mem_cons_self)] at id
      exact .inr (.pair bears asked entity own first target rfl above id rfl)

/-- Loading a node adds rows of its own only. -/
theorem NodeLoaded.origin (ideal : vs.Ideal) (loaded : NodeLoaded vs m settings x db report db' report')
    (before : Consistent vs m db) (knows : db.Knows vs x.above) (mem : row ∈ db'.rowsOf u.name) :
    row ∈ db.rowsOf u.name ∨ Origin vs m settings x db' u row := by
  cases loaded with
  | container container => exact .inl mem
  | bearing bears table fits castable upserted surrounded paired =>
    have first := upserted.consistent compiles table.mem ideal table.kind before fits castable
    have second := surrounded.consistent compiles first
    have id := upserted.idAt compiles ideal bears table before fits castable
    have line := upserted.knows compiles ideal bears table before fits castable knows
    have line' := surrounded.grows.knows line
    rcases paired.origin compiles hu second.there bears line' mem with mem | origin
    · rcases surrounded.origin compiles hu settings first.there bears line mem with mem | origin
      · rcases upserted.rowsOf compiles ideal table.mem table.kind before fits castable hu mem with mem | ⟨rfl, carried⟩
        · exact .inl mem
        · exact .inr (.entity bears table carried)
      · exact .inr (origin.grows paired.grows line')
    · exact .inr origin

end Steps

theorem NodeRefused.rowsOf {enforce : Bool} {error : LoadError} (refused : NodeRefused vs m enforce x db error db')
    (name : String) : db'.rowsOf name = db.rowsOf name := by
  cases refused with
  | mk bears table refused => cases refused <;> rfl

end TreeStore
