import TreeStore.Proofs.Load.Interruption

/-! Applying the schema of a model for another time: every table is there and every pair is registered, so the
database stays as it is, also if requests fail. -/

namespace TreeStore

open Database

section Stays

variable {σ : Type} {store : Store σ} {P : σ → Prop} {stmts : List Statement}

/-- What every statement keeps, applying them keeps. -/
theorem Store.apply_stays (creates : ∀ t, .create t ∈ stmts → ∀ s, P s → P (store.answer (.create t) s).2)
    (registers : ∀ e, .register e ∈ stmts → ∀ s, P s → P (Registry.register store e s).2) {s : σ} (start : P s) :
    P (store.apply stmts s).2 := by
  have all : ∀ report, P (stmts.foldl (fun (p : ApplyReport × σ) stmt => store.applyStatement p.1 p.2 stmt)
      (report, s)).2 := by
    induction stmts generalizing s with
    | nil => exact fun _ => start
    | cons stmt rest ih =>
      intro report
      have step : P (store.applyStatement report s stmt).2 := by
        cases stmt with
        | create t =>
          rw [applyStatement_create]
          exact creates t List.mem_cons_self s start
        | register e =>
          rw [applyStatement_register]
          exact registers e List.mem_cons_self s start
      exact ih (fun t mem => creates t (List.mem_cons_of_mem _ mem))
        (fun e mem => registers e (List.mem_cons_of_mem _ mem)) step _
  exact all {}

end Stays

namespace Model

variable {m : Model}

theorem mem_of_create {t : Table} (mem : .create t ∈ m.schema.statements) : t ∈ m.tables := by
  rcases List.mem_append.1 mem with mem | mem
  · obtain ⟨u, hu, eq⟩ := List.mem_map.1 mem
    cases eq
    exact hu
  · obtain ⟨_, _, eq⟩ := List.mem_map.1 mem
    cases eq

theorem mem_of_register {e : HierarchyEntry} (mem : .register e ∈ m.schema.statements) : e ∈ m.hierarchyEntries := by
  rcases List.mem_append.1 mem with mem | mem
  · obtain ⟨_, _, eq⟩ := List.mem_map.1 mem
    cases eq
  · obtain ⟨u, hu, eq⟩ := List.mem_map.1 mem
    cases eq
    exact hu

theorem Compiles.kind_of_sequence (compiles : m.Compiles) {t : Table} (mem : t ∈ m.tables) {q : String}
    (sequence : t.sequence? = some q) : t.kind = .entity := by
  rcases compiles.wellNamed.mem_tables mem with rfl | ⟨e, _, created, rfl⟩ | ⟨e, _, r, _, rfl⟩ | ⟨e, _, _, rfl⟩
  · cases sequence
  · rfl
  · cases sequence
  · cases sequence

end Model

namespace Database.Consistent

variable {V : Type} {vs : ValueSystem V} {m : Model} {db : Database V} (consistent : Consistent vs m db)
  (compiles : m.Compiles)
include consistent compiles

theorem addSequence {t : Table} (mem : t ∈ m.tables) : db.addSequence t.sequence? = db := by
  cases sequence : t.sequence? with
  | none => rfl
  | some q =>
    obtain rfl := compiles.sequence_name mem sequence
    obtain ⟨n, next, _⟩ := consistent.entities t mem (compiles.kind_of_sequence mem sequence)
    obtain ⟨s, found, _⟩ := Option.map_eq_some_iff.1 next
    have same := List.find?_some (p := fun s : String × Int => sameName s.1 (Schema.sequenceOf t.name)) found
    exact if_pos (List.any_eq_true.2 ⟨s, List.mem_of_find?_eq_some found, same⟩)

/-- A table of the model is not created again. -/
theorem create_again {t : Table} (mem : t ∈ m.tables) : ∃ error, db.create vs t = (.error error, db) := by
  unfold Database.create
  dsimp only
  rw [consistent.addSequence compiles mem, consistent.table? compiles mem]
  split
  · exact ⟨_, rfl⟩
  · next eq =>
    obtain ⟨_, _, rest⟩ := bind_eq_ok.1 eq
    obtain ⟨_, _, stop⟩ := bind_eq_ok.1 rest
    cases stop

omit compiles in
/-- A pair of the model's hierarchy is not registered again. -/
theorem register_again (ideal : vs.Ideal) (enforce : Bool) {e : HierarchyEntry} (mem : e ∈ m.hierarchyEntries) :
    ∃ row rows, (store vs enforce).answer (.select (Registry.selectRelation e.parent e.child)) db =
      (.ok (row :: rows), db) := by
  obtain ⟨rows, selected, empty⟩ := selectRelation_ok ideal consistent.registryTable? e.parent e.child
  have known : m.hierarchy.has e.parent e.child = true := Hierarchy.has_ofEntries.2 ⟨e, mem, rfl⟩
  cases rows with
  | nil => rw [empty.1 rfl] at known; cases known
  | cons row rows => exact ⟨row, rows, congrArg (·, db) selected⟩

/-- Applying the schema again changes nothing. -/
theorem apply_again (ideal : vs.Ideal) (enforce : Bool) : ((store vs enforce).apply m.schema.statements db).2 = db := by
  refine Store.apply_stays (P := (· = db)) (fun t mem s eq => ?_) (fun e mem s eq => ?_) rfl
  · subst eq
    obtain ⟨error, failed⟩ := consistent.create_again compiles (Model.mem_of_create mem)
    exact congrArg Prod.snd failed
  · subst eq
    obtain ⟨row, rows, found⟩ := consistent.register_again ideal enforce (Model.mem_of_register mem)
    rw [Registry.register, found]

/-- So does applying it while requests fail. -/
theorem apply_again_failing (ideal : vs.Ideal) (enforce : Bool) (faults : Faults) :
    ((store vs enforce).failing.apply m.schema.statements (db, faults)).2.1 = db := by
  refine Store.apply_stays (P := fun s : Database V × Faults => s.1 = db) (fun t mem s eq => ?_)
    (fun e mem s eq => ?_) rfl
  · obtain ⟨db', left⟩ := s
    cases eq
    obtain ⟨error, failed⟩ := consistent.create_again compiles (Model.mem_of_create mem)
    rcases (store vs enforce).failing_answer (.create t) db' left with ⟨error', fault⟩ | same
    · rw [fault]
    · rw [same]
      exact congrArg Prod.snd failed
  · obtain ⟨db', left⟩ := s
    cases eq
    obtain ⟨row, rows, found⟩ := consistent.register_again ideal enforce (Model.mem_of_register mem)
    unfold Registry.register
    rcases (store vs enforce).failing_answer (.select (Registry.selectRelation e.parent e.child)) db' left with
      ⟨error, fault⟩ | same
    · rw [fault]
    · rw [same, found]

end Database.Consistent

end TreeStore
