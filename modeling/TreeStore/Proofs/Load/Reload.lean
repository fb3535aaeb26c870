import TreeStore.Proofs.Load.Session

/-! Loading a tree for another time. What it has left in the database is there for good, so that it is found
again, whatever has been loaded meanwhile and whichever loader is asked. -/

namespace TreeStore

open Database Loader

variable {V : Type} {vs : ValueSystem V}

theorem LoadState.again {m : Model} (compiles : m.Compiles) (ideal : vs.Ideal) (enforce : Bool) {s : LoadState V}
    (sound : Sound vs m s) {c : LoadCall} (root : c.tree.RootedIn m) {report : LoadReport}
    (loaded : (s.load vs enforce c).1 = .ok report) {later : LoadState V} (soundLater : Sound vs m later)
    (grows : (s.load vs enforce c).2.database.Grows later.database) (loader : Nat) :
    (later.load vs enforce { c with loader }).1 = .ok report.settled ∧
      (later.load vs enforce { c with loader }).2.database = later.database := by
  have first := (load_ends enforce compiles ideal sound root).2
  have second := (load_ends enforce compiles ideal soundLater (c := { c with loader }) root).2
  rw [loaded] at first
  cases first with
  | done checked all =>
    -- What the first run has recorded stays so while the database grows; the second run can then neither add
    -- a row nor be refused.
    have recorded : ∀ x ∈ c.tree.trails, Recorded vs m c.settings later.database x := fun x mem =>
      (all.recorded compiles ideal sound.consistent x mem).grows grows
    have counts := all.settled
    generalize (later.load vs enforce { c with loader }).1 = result at second ⊢
    generalize (later.load vs enforce { c with loader }).2.database = left at second ⊢
    cases second with
    | violation bad => rw [checked] at bad; cases bad
    | done checked' all' =>
      obtain ⟨same, reported⟩ := all'.of_recorded compiles soundLater.consistent recorded
      refine ⟨?_, same⟩
      rw [reported, counts]
      rfl
    | failed checked' stopped => exact (stopped.not_of_recorded compiles soundLater.consistent recorded).elim

/-- Reloading a tree leaves the database exactly as it is and reports the same containers, nothing inserted, and
as reused or skipped what the first load has inserted, reused or skipped. -/
theorem reload_settled (ideal : vs.Ideal) (enforce : Bool) {m : Model} {schema : Schema}
    (compiled : Schema.ofModel m = .ok schema) (before further : List LoadCall)
    (rooted : ∀ c ∈ before ++ further, c.tree.RootedIn m) {c : LoadCall} (root : c.tree.RootedIn m)
    {report : LoadReport}
    (loaded : (((LoadState.founded vs enforce schema).loads vs enforce before).load vs enforce c).1 = .ok report)
    (loader : Nat) :
    let after := (((LoadState.founded vs enforce schema).loads vs enforce before).load vs enforce c).2
    let later := after.loads vs enforce further
    (later.load vs enforce { c with loader }).1 = .ok report.settled ∧
      (later.load vs enforce { c with loader }).2.database = later.database := by
  obtain ⟨rfl, compiles⟩ := ofModel_ok.1 compiled
  have sound := LoadState.loads_sound enforce compiles ideal (LoadState.founded_sound enforce compiles ideal)
    fun c mem => rooted c (List.mem_append_left _ mem)
  have soundAfter := (LoadState.load_ends enforce compiles ideal sound root).1
  have rootedFurther : ∀ c ∈ further, c.tree.RootedIn m := fun c mem => rooted c (List.mem_append_right _ mem)
  have soundLater := LoadState.loads_sound enforce compiles ideal soundAfter rootedFurther
  have grows := LoadState.loads_grows enforce compiles ideal soundAfter rootedFurther
  exact LoadState.again compiles ideal enforce sound root loaded soundLater grows loader

/-- A box is loaded, then another with the same item, and then the first again by a new loader. -/
theorem reload_box :
    let after := (Sample.start.load ColumnValue.system true (Sample.loading "7" "x")).2
    let later := after.loads ColumnValue.system true [Sample.loading "8" "x"]
    (later.load ColumnValue.system true { Sample.loading "7" "x" with loader := 1 }).1 =
        .ok { rowsReused := 2, relationshipsSkipped := 1, junctionsSkipped := 1 } ∧
      (later.load ColumnValue.system true { Sample.loading "7" "x" with loader := 1 }).2.database = later.database :=
  reload_settled ColumnValue.system_ideal true Sample.boxes_compile [] [Sample.loading "8" "x"]
    (fun c mem => by rw [List.mem_singleton.1 mem]; exact Sample.box_rooted "8" "x") (Sample.box_rooted "7" "x")
    Sample.start_loads 1

end TreeStore
