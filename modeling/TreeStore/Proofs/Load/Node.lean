import TreeStore.Proofs.Load.Trail

/-! What becomes of a node when a tree is loaded. A container is counted. A node with attributes is found or
inserted, at a leaf its surroundings are recorded, and it is paired with its parent if that has an id; only
finding or inserting it can fail. -/

namespace TreeStore

open Database Loader

variable {V : Type} (vs : ValueSystem V) (m : Model)

structure Model.TableFor (type : String) (t : Table) : Prop where
  mem : t ∈ m.tables
  kind : t.kind = .entity
  name : t.name = type

/-- The row of the ids on a way up that is kept for a leaf. -/
def Database.surroundings (db : Database V) (e : Entity) (line : List Label) : Cells V :=
  idRow (contextIds (db.contextOf vs line) (Schema.relationships m m.hierarchy e.name))

inductive Surrounded (x : Trail) (db : Database V) (report : LoadReport) : Database V → LoadReport → Prop
  | inner (inner : m.hierarchy.isLeaf x.node.type = false) : Surrounded x db report db report
  | leaf {e : Entity} {new : Bool} {db' : Database V} (entity : e ∈ m.entities) (name : e.name.text = x.node.type)
      (leaf : m.hierarchy.isLeaf e.name.text = true)
      (noted : Noted (Schema.relationshipsTable e.name.text) (db.surroundings vs m e x.line) db new db') :
      Surrounded x db report db' (noteRelationship new report)

inductive Paired (settings : LoadSettings) (x : Trail) (db : Database V) (report : LoadReport) :
    Database V → LoadReport → Prop
  | apart (apart : settings.recordJunctions = false ∨ db.parentOf vs x.above = none) :
      Paired settings x db report db report
  | pair {e : Entity} {r : Relation} {parent child : Int} {new : Bool} {db' : Database V}
      (asked : settings.recordJunctions = true) (entity : e ∈ m.entities) (own : r ∈ e.relations)
      (first : m.hierarchy.relation? e.name.text r.target.text = some r.name.text)
      (target : r.target.text = x.node.type) (above : db.parentOf vs x.above = some (e.name.text, parent))
      (id : db.idAt vs x.node = some child)
      (noted : Noted (Schema.junctionTable e.name.text r.name.text) (idRow [some parent, some child]) db new db') :
      Paired settings x db report db' (noteJunction new report)

/-- What becomes of a node that is loaded. -/
inductive NodeLoaded (settings : LoadSettings) (x : Trail) (db : Database V) (report : LoadReport) :
    Database V → LoadReport → Prop
  | container (container : x.node.bears = false) :
      NodeLoaded settings x db report db { report with containers := report.containers + 1 }
  | bearing {t : Table} {n : Int} {db₁ db₂ db₃ : Database V} {r₁ r₂ r₃ : LoadReport} (bears : x.node.bears = true)
      (table : m.TableFor x.node.type t) (fits : (stored vs t).Fits m.hierarchy x.node.attributes)
      (castable : (stored vs t).Castable vs m.hierarchy x.node.attributes)
      (upserted : Upserted vs m t x.node.attributes db report n db₁ r₁)
      (surrounded : Surrounded vs m x db₁ r₁ db₂ r₂) (paired : Paired vs m settings x db₂ r₂ db₃ r₃) :
      NodeLoaded settings x db report db₃ r₃

/-- Why a node is not loaded, and what is left. -/
inductive NodeRefused (enforce : Bool) (x : Trail) (db : Database V) : LoadError → Database V → Prop
  | mk {t : Table} {error : LoadError} {db' : Database V} (bears : x.node.bears = true)
      (table : m.TableFor x.node.type t) (refused : Refused vs m enforce x.path t x.node.attributes db error db') :
      NodeRefused enforce x db error db'

variable {vs m} {settings : LoadSettings} {x : Trail} {db db' : Database V} {report report' : LoadReport}

theorem Model.Compiles.tableFor (compiles : m.Compiles) {type : String}
    (entity : ∃ e ∈ m.entities, e.name.text = type) :
    ∃ t, m.TableFor type t := by
  obtain ⟨e, he, rfl⟩ := entity
  obtain ⟨created, mem⟩ := compiles.entityTable_mem he
  exact ⟨_, mem, rfl, rfl⟩

theorem Model.TableFor.unique (compiles : m.Compiles) {type : String} {t u : Table} (first : m.TableFor type t)
    (second : m.TableFor type u) : t = u := by
  refine compiles.table_unique first.mem second.mem ?_
  rw [first.name, second.name]
  exact sameName_self type

/-! ### Growing -/

theorem Surrounded.grows (surrounded : Surrounded vs m x db report db' report') : db.Grows db' := by
  cases surrounded with
  | inner inner => exact .refl db
  | leaf entity name leaf noted => exact noted.grows

theorem Paired.grows (paired : Paired vs m settings x db report db' report') : db.Grows db' := by
  cases paired with
  | apart apart => exact .refl db
  | pair asked entity own first target above id noted => exact noted.grows

theorem NodeLoaded.grows (loaded : NodeLoaded vs m settings x db report db' report') : db.Grows db' := by
  cases loaded with
  | container container => exact .refl db
  | bearing bears table fits castable upserted surrounded paired =>
    exact upserted.grows.trans (surrounded.grows.trans paired.grows)

theorem NodeRefused.grows {enforce : Bool} {error : LoadError} (refused : NodeRefused vs m enforce x db error db') :
    db.Grows db' := by
  cases refused with
  | mk bears table refused => exact refused.grows

/-! ### Consistency -/

section Consistency

variable (compiles : m.Compiles)
include compiles

theorem Surrounded.consistent (surrounded : Surrounded vs m x db report db' report') (before : Consistent vs m db) :
    Consistent vs m db' := by
  cases surrounded with
  | inner inner => exact before
  | leaf entity name leaf noted =>
    exact noted.consistent compiles (Model.Compiles.relationships_mem entity leaf) (.inr rfl) (List.length_map _) before

theorem Paired.consistent (paired : Paired vs m settings x db report db' report') (before : Consistent vs m db) :
    Consistent vs m db' := by
  cases paired with
  | apart apart => exact before
  | pair asked entity own first target above id noted =>
    exact noted.consistent compiles (Model.Compiles.junction_mem entity own) (.inl rfl) rfl before

theorem NodeLoaded.consistent (ideal : vs.Ideal) (loaded : NodeLoaded vs m settings x db report db' report')
    (before : Consistent vs m db) : Consistent vs m db' := by
  cases loaded with
  | container container => exact before
  | bearing bears table fits castable upserted surrounded paired =>
    have first := upserted.consistent compiles table.mem ideal table.kind before fits castable
    exact paired.consistent compiles (surrounded.consistent compiles first)

theorem Upserted.idAt {t : Table} {n : Int} (ideal : vs.Ideal) (bears : x.node.bears = true)
    (table : m.TableFor x.node.type t) (before : Consistent vs m db)
    (fits : (stored vs t).Fits m.hierarchy x.node.attributes)
    (castable : (stored vs t).Castable vs m.hierarchy x.node.attributes)
    (upserted : Upserted vs m t x.node.attributes db report n db' report') : db'.idAt vs x.node = some n := by
  have number := upserted.numberOf compiles table.mem ideal table.kind before fits castable
  rw [idAt_bearing bears, ← table.name]
  exact number

theorem Upserted.knows {t : Table} {n : Int} (ideal : vs.Ideal) (bears : x.node.bears = true)
    (table : m.TableFor x.node.type t) (before : Consistent vs m db)
    (fits : (stored vs t).Fits m.hierarchy x.node.attributes)
    (castable : (stored vs t).Castable vs m.hierarchy x.node.attributes) (knows : db.Knows vs x.above)
    (upserted : Upserted vs m t x.node.attributes db report n db' report') : db'.Knows vs x.line := by
  have id := upserted.idAt compiles ideal bears table before fits castable
  exact (upserted.grows.knows knows).cons fun _ => Option.isSome_iff_exists.2 ⟨n, id⟩

theorem NodeLoaded.knows (ideal : vs.Ideal) (loaded : NodeLoaded vs m settings x db report db' report')
    (before : Consistent vs m db) (knows : db.Knows vs x.above) : db'.Knows vs x.line := by
  cases loaded with
  | container container =>
    refine knows.cons fun bears => ?_
    rw [container] at bears
    cases bears
  | bearing bears table fits castable upserted surrounded paired =>
    have line := upserted.knows compiles ideal bears table before fits castable knows
    exact (surrounded.grows.trans paired.grows).knows line

end Consistency

/-! ### Loading a node -/

namespace Loader

section Parts

variable {σ : Type} (store : Store σ) (h : Hierarchy) (settings : LoadSettings) (path : NodePath)

def surround (type : String) (context : Context) : LoadM σ Unit :=
  if h.isLeaf type then recordRelationship store path type context else pure ()

def pair (parent : Option (String × Int)) (child : String × Int) : LoadM σ Unit :=
  match parent with
  | some parent => if settings.recordJunctions then recordJunction store h path parent child else pure ()
  | none => pure ()

theorem visitNode_bearing (parent : Option (String × Int)) (context : Context) (type : String)
    {attributes : TextMap String} (bearing : attributes.isEmpty = false) :
    visitNode store h settings path parent context type attributes = (do
      let id ← upsert store h path type attributes
      surround store h path type (context.insert type id)
      pair store h settings path parent (type, id)
      return (some id, context.insert type id)) := by
  unfold visitNode surround pair
  simp only [bearing, Bool.false_eq_true, if_false]
  congr 1
  funext id
  cases h.isLeaf type <;> cases parent <;> cases settings.recordJunctions <;> rfl

end Parts

variable (enforce : Bool) (compiles : m.Compiles)
include compiles

theorem surround_outcome {p : Progress (Database V)} (ready : Ready vs m p) (lawful : Lawful m x.line)
    {n : Int} (knows : p.store.Knows vs x.above) (id : p.store.idAt vs x.node = some n) :
    ∃ q, Ready vs m q ∧ Surrounded vs m x p.store p.report q.store q.report ∧
      outcome (surround (store vs enforce) m.hierarchy x.path x.node.type (p.store.contextOf vs x.line)) p =
        (.ok (), q) := by
  unfold surround
  cases isLeaf : m.hierarchy.isLeaf x.node.type with
  | false => exact ⟨p, ready, .inner isLeaf, rfl⟩
  | true =>
    obtain ⟨e, he, name⟩ := lawful.entities x.node List.mem_cons_self
    have leaf : m.hierarchy.isLeaf e.name.text = true := by rw [name]; exact isLeaf
    have bears := idAt_bears id
    have known : p.store.Knows vs x.line := knows.cons fun _ => by rw [id]; rfl
    have nearest : nearest? e.name.text x.line = some x.node := by simp [nearest?, Trail.line, bears, name]
    have self : (p.store.contextOf vs x.line).get? e.name.text = some n := by
      rw [contextOf_get? known, nearest]
      exact id
    obtain ⟨columns, new, db, right, noted, recorded⟩ := recordRelationship_outcome enforce compiles ready he leaf
      (carried_contextOf lawful) self x.path
    have surrounded : Surrounded vs m x p.store p.report db _ := .leaf he name leaf noted
    refine ⟨⟨db, columns, noteRelationship new p.report⟩, ⟨?_, right⟩, surrounded, ?_⟩
    · exact surrounded.consistent compiles ready.consistent
    · rw [← name]
      exact recorded

theorem pair_outcome {p : Progress (Database V)} (ready : Ready vs m p) (lawful : Lawful m x.line)
    {n : Int} (id : p.store.idAt vs x.node = some n) (settings : LoadSettings) :
    ∃ q, Ready vs m q ∧ Paired vs m settings x p.store p.report q.store q.report ∧
      outcome (pair (store vs enforce) m.hierarchy settings x.path (p.store.parentOf vs x.above) (x.node.type, n)) p =
        (.ok (), q) := by
  unfold pair
  cases above : p.store.parentOf vs x.above with
  | none => exact ⟨p, ready, .apart (.inr above), rfl⟩
  | some parent =>
    cases asked : settings.recordJunctions with
    | false => exact ⟨p, ready, .apart (.inl asked), rfl⟩
    | true =>
      cases eq : x.above with
      | nil => rw [eq] at above; cases above
      | cons l rest =>
        rw [Trail.line, eq] at lawful
        obtain ⟨e, he, r, hr, parentType, childType, first⟩ := lawful.relation
        have front : (p.store.idAt vs l).map (l.type, ·) = some parent := by
          rw [← above, eq]
          rfl
        obtain ⟨k, parentId, rfl⟩ := Option.map_eq_some_iff.1 front
        rw [← parentType] at above
        have parentThere : p.store.HasId e.name.text k := by
          rw [idAt_bearing (idAt_bears parentId), ← parentType] at parentId
          exact hasId_of_numberOf parentId
        have childThere : p.store.HasId r.target.text n := by
          have number := id
          rw [idAt_bearing (idAt_bears id), ← childType] at number
          exact hasId_of_numberOf number
        obtain ⟨columns, new, db, right, noted, recorded⟩ := recordJunction_outcome enforce compiles ready he hr
          first parentThere childThere x.path
        have paired : Paired vs m settings x p.store p.report db _ :=
          .pair asked he hr first childType above id noted
        refine ⟨⟨db, columns, noteJunction new p.report⟩, ⟨?_, right⟩, paired, ?_⟩
        · exact paired.consistent compiles ready.consistent
        · rw [← parentType, ← childType]
          exact recorded

/-- The outcome for a node below others that are known: it is loaded and known itself, or refused. -/
theorem visitNode_outcome (ideal : vs.Ideal) {p : Progress (Database V)} (ready : Ready vs m p)
    (settings : LoadSettings) (lawful : Lawful m x.line) (knows : p.store.Knows vs x.above) :
    ∃ q, Ready vs m q ∧
      ((NodeLoaded vs m settings x p.store p.report q.store q.report ∧
          outcome (visitNode (store vs enforce) m.hierarchy settings x.path (p.store.parentOf vs x.above)
            (p.store.contextOf vs x.above) x.node.type x.node.attributes) p =
            (.ok (q.store.idAt vs x.node, q.store.contextOf vs x.line), q)) ∨
        ∃ error, NodeRefused vs m enforce x p.store error q.store ∧
          outcome (visitNode (store vs enforce) m.hierarchy settings x.path (p.store.parentOf vs x.above)
            (p.store.contextOf vs x.above) x.node.type x.node.attributes) p = (.error error, q)) := by
  cases bears : x.node.bears with
  | false =>
    have empty : x.node.attributes.isEmpty = true := by simpa [Label.bears] using bears
    have context : p.store.contextOf vs x.line = p.store.contextOf vs x.above := by
      rw [Trail.line, contextOf, idAt_container bears]
    refine ⟨{ p with report := { p.report with containers := p.report.containers + 1 } },
      ⟨ready.consistent, ready.columns⟩, .inl ⟨.container bears, ?_⟩⟩
    unfold visitNode
    simp only [empty, if_true, context, idAt_container bears]
    rfl
  | true =>
    have bearing : x.node.attributes.isEmpty = false := by simpa [Label.bears] using bears
    obtain ⟨t, table⟩ := compiles.tableFor (lawful.entities x.node List.mem_cons_self)
    rw [visitNode_bearing _ _ _ _ _ _ _ bearing]
    obtain ⟨columns, right, outcomes⟩ := upsert_outcome enforce compiles ideal ready table.mem table.kind bearing x.path
    rw [table.name] at outcomes
    rcases outcomes with ⟨n, db, report, fits, castable, upserted, done⟩ | ⟨error, db, refused, failed⟩
    · have first := upserted.consistent compiles table.mem ideal table.kind ready.consistent fits castable
      have id := upserted.idAt compiles ideal bears table ready.consistent fits castable
      have above : db.Knows vs x.above := upserted.grows.knows knows
      have context : (p.store.contextOf vs x.above).insert x.node.type n = db.contextOf vs x.line := by
        rw [← upserted.grows.contextOf knows, Trail.line, contextOf, id]
      have parent := upserted.grows.parentOf knows
      obtain ⟨q, ready', surrounded, second⟩ := surround_outcome enforce compiles (p := ⟨db, columns, report⟩)
        ⟨first, right⟩ lawful above id
      have id' : q.store.idAt vs x.node = some n := (surrounded.grows.idAt fun _ => by rw [id]; rfl).trans id
      have parent' := surrounded.grows.parentOf above
      obtain ⟨w, ready'', paired, third⟩ := pair_outcome enforce compiles ready' lawful id' settings
      have id'' : w.store.idAt vs x.node = some n := (paired.grows.idAt fun _ => by rw [id']; rfl).trans id'
      have line := upserted.knows compiles ideal bears table ready.consistent fits castable knows
      have context' : w.store.contextOf vs x.line = db.contextOf vs x.line :=
        (surrounded.grows.trans paired.grows).contextOf line
      refine ⟨w, ready'', .inl ⟨.bearing bears table fits castable upserted surrounded paired, ?_⟩⟩
      rw [outcome_bind_ok done, context, outcome_bind_ok second, ← parent, ← parent', outcome_bind_ok third,
        id'', context']
      rfl
    · refine ⟨⟨db, columns, p.report⟩, ⟨refused.consistent compiles table.mem table.kind ready.consistent, right⟩,
        .inr ⟨error, .mk bears table refused, ?_⟩⟩
      rw [outcome_bind_error failed]

end Loader

end TreeStore
