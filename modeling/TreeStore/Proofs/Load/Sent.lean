import TreeStore.Proofs.Load.BoundValues

/-! What a store is sent for a load, and for the application of a schema, is read back as the requests that are made:
the text and the parameters tell a store all that it is asked. Commands that create tables are not among these. -/

namespace TreeStore

open Loader Sql

variable {σ : Type} (A : Store σ)

/-! ### Nodes -/

def CatalogColumn.Balanced (c : CatalogColumn) : Prop := bracketsAfter 0 c.type.toList = some 0

/-- The types of all columns that are remembered have matching brackets. -/
def Loader.Balanced (columns : ColumnCache) : Prop :=
  ∀ key found, columns.get? key = some found → ∀ c ∈ found, c.Balanced

namespace Label

variable {l : Label} {columns : List CatalogColumn}

theorem Casts.balanced {o : Operand} (casts : l.Casts columns o) (balanced : ∀ c ∈ columns, c.Balanced) :
    o.Balanced := by
  obtain ⟨c, mem, _, typed⟩ := casts
  intro type cast
  obtain rfl : c.type = type := Option.some.inj (typed.symm.trans cast)
  exact balanced c mem

theorem finding_legible (balanced : ∀ c ∈ columns, c.Balanced) : (l.finding columns).Legible :=
  .select nofun fun c mem o asked => (finding_casts c mem o asked).balanced balanced

theorem insertion_legible (balanced : ∀ c ∈ columns, c.Balanced) : (l.insertion columns).Legible :=
  .insertReturning fun v mem => (insertion_casts v mem).balanced balanced

end Label

namespace Tree

mutual

theorem twin_self : (t : Tree) → t.Twin t
  | ⟨_, _, children⟩ => by
    rw [Twin]
    exact ⟨rfl, rfl, twinEach_self children⟩

theorem twinEach_self : (ts : List Tree) → TwinEach ts ts
  | [] => by
    rw [TwinEach]
    trivial
  | c :: rest => by
    rw [TwinEach]
    exact ⟨twin_self c, twinEach_self rest⟩

end

end Tree

/-! ### Loads -/

theorem Corresponds.legible {h : Hierarchy} {catalog : ColumnCache} {nodes : Label → Label → Prop} {c c' : Exchange}
    (balanced : Balanced catalog) (corresponds : Corresponds h catalog nodes c c') : c.request.Legible := by
  cases corresponds with
  | columnsOf => exact .columnsOf
  | ids _ legible _ => exact legible
  | finding _ _ known _ => exact Label.finding_legible fun c mem => balanced _ _ known c (List.mem_filter.1 mem).1
  | insertion _ _ known _ => exact Label.insertion_legible fun c mem => balanced _ _ known c (List.mem_filter.1 mem).1

/-- All that has been asked is legible. -/
def Legible (log : List Exchange) : Prop := ∀ c ∈ log, c.request.Legible

theorem Legible.append {log d : List Exchange} (before : Legible log) (more : Legible d) : Legible (log ++ d) :=
  fun c mem => (List.mem_append.1 mem).elim (before c) (more c)

namespace Loader

variable (settings : LoadSettings) (t : Tree) (columns : ColumnCache) (s : σ)

theorem registryRead_legible : Legible [registryRead A s] := fun c mem => by
  obtain rfl := List.mem_singleton.1 mem
  exact .select (by decide) nofun

/-- A load goes in lockstep with itself, so each exchange corresponds to itself. -/
theorem loadWith_legible (h : Hierarchy) {log : List Exchange} (before : Legible log)
    (balanced : Balanced (run (loadWith A.overheard h settings t) columns (s, log)).2.1) :
    Legible (run (loadWith A.overheard h settings t) columns (s, log)).2.2.2 := by
  have lockstep : Lockstep (run (loadWith A.overheard h settings t) columns (s, log)).2.1 _ Eq
      (loadWith A.overheard h settings t) (loadWith A.overheard h settings t) :=
    loadWith_lockstep h settings (Tree.twin_self t)
  obtain ⟨d, heard⟩ := (lockstep.first { store := (s, log), columns }).heard
  obtain ⟨_, _, calls⟩ := lockstep.both (p := { store := (s, log), columns }) (q := { store := (s, log), columns })
    ⟨rfl, rfl⟩ heard.symm heard.symm (.inl (List.prefix_refl _)) (.refl _)
  have asked : (run (loadWith A.overheard h settings t) columns (s, log)).2.2.2 = log ++ d := heard.symm
  rw [asked]
  exact before.append fun c mem => (List.forall₂_same.1 calls c mem).legible balanced

theorem load_legible (balanced : Balanced (run (load A.overheard settings t) columns (s, [])).2.1) :
    Legible (run (load A.overheard settings t) columns (s, [])).2.2.2 := by
  rcases read : (Registry.load A s).1 with e | h
  · rw [run_load_fails A settings columns read]
    exact registryRead_legible A s
  · rw [run_load_ok A settings columns read] at balanced ⊢
    exact loadWith_legible A settings t columns _ h (registryRead_legible A s) balanced

/-- Whatever a store answers, all that it is sent for a load is read back as what it is asked. -/
theorem load_reads_back (balanced : Balanced (run (load A.overheard settings t) columns (s, [])).2.1) :
    ∀ c ∈ (run (load A.overheard settings t) columns (s, [])).2.2.2,
      Request.read? c.request.method c.request.sql c.request.params = some c.request :=
  fun c mem => (load_legible A settings t columns s balanced c mem).reads_back

end Loader

/-! ### Schemas -/

theorem Statement.registration_legible (e : HierarchyEntry) : ∀ r ∈ (Statement.register e).requests, r.Legible := by
  intro r mem
  rcases List.mem_pair.1 mem with rfl | rfl
  · refine .select nofun fun c mem o own => ?_
    rcases List.mem_pair.1 mem with rfl | rfl <;> cases own <;> exact .of_untyped rfl
  · refine .insert fun v mem => .of_untyped ?_
    rw [Registry.insertEntry, List.mem_cons, List.mem_pair] at mem
    rcases mem with rfl | rfl | rfl <;> rfl

/-- Whatever a store answers, it is asked no more than the statements ask for. -/
theorem Store.apply_asks (stmts : List Statement) (s : σ) :
    ∀ c ∈ (A.overheard.apply stmts (s, [])).2.2, ∃ stmt ∈ stmts, c.request ∈ stmt.requests := by
  let kept (t : σ × List Exchange) : Prop := ∀ c ∈ t.2, ∃ stmt ∈ stmts, c.request ∈ stmt.requests
  refine Store.apply_keeps (I := kept) stmts (fun stmt mem r asked t before c said => ?_) fun _ none => nomatch none
  rcases List.mem_append.1 said with said | said
  · exact before c said
  · obtain rfl := List.mem_singleton.1 said
    exact ⟨stmt, mem, asked⟩

/-- What a store is sent for a schema creates a table of the schema, or is read back as what the store is asked. -/
theorem Store.apply_reads_back (stmts : List Statement) (s : σ) : ∀ c ∈ (A.overheard.apply stmts (s, [])).2.2,
    (∃ t, .create t ∈ stmts ∧ c.request = .create t) ∨
      Request.read? c.request.method c.request.sql c.request.params = some c.request := by
  intro c said
  obtain ⟨stmt, mem, asked⟩ := A.apply_asks stmts s c said
  cases stmt with
  | create t => exact .inl ⟨t, mem, List.mem_singleton.1 asked⟩
  | register e => exact .inr (Statement.registration_legible e _ asked).reads_back

end TreeStore
