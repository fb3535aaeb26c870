import TreeStore.Proofs.Load.Session

/-! The contents of a database after loads that have all succeeded: all their nodes are recorded, and every row
is a row of one of their nodes. -/

namespace TreeStore

open Database Loader

def BearingIn (calls : List LoadCall) (x : Trail) : Prop := x.node.bears = true ∧ ∃ c ∈ calls, x ∈ c.tree.trails

variable {V : Type} (vs : ValueSystem V) (m : Model)

structure Contents (calls : List LoadCall) (db : Database V) : Prop where
  consistent : Consistent vs m db
  lawful : ∀ c ∈ calls, ∀ x ∈ c.tree.trails, Lawful m x.line
  recorded : ∀ c ∈ calls, ∀ x ∈ c.tree.trails, Recorded vs m c.settings db x
  origin : ∀ u ∈ m.tables, u.kind ≠ .registry → ∀ row ∈ db.rowsOf u.name,
    ∃ c ∈ calls, ∃ x ∈ c.tree.trails, Origin vs m c.settings x db u row

variable {vs m} {calls : List LoadCall} {db db' : Database V}

theorem Loaded.lawful {settings : LoadSettings} {xs : List Trail} {report report' : LoadReport}
    (loaded : Loaded vs m settings xs db report db' report') : ∀ x ∈ xs, Lawful m x.line := by
  induction loaded with
  | nil db report => exact fun _ mem => nomatch mem
  | cons lawful knows first others ih =>
    intro x mem
    rcases List.mem_cons.1 mem with rfl | mem
    · exact lawful
    · exact ih x mem

section Loading

variable (compiles : m.Compiles) (ideal : vs.Ideal)
include compiles

theorem founded_contents : Contents vs m [] (founded vs m) where
  consistent := founded_consistent compiles
  lawful := fun _ mem => nomatch mem
  recorded := fun _ mem => nomatch mem
  origin := fun u hu data row mem => by
    rw [founded_rowsOf compiles (mem_dataTables hu data)] at mem
    cases mem

include ideal

theorem Contents.add (contents : Contents vs m calls db) {c : LoadCall} {report report' : LoadReport}
    (loaded : Loaded vs m c.settings c.tree.trails db report db' report') : Contents vs m (calls ++ [c]) db' where
  consistent := loaded.consistent compiles ideal contents.consistent
  lawful := fun d mem => by
    rcases List.mem_append.1 mem with mem | mem
    · exact contents.lawful d mem
    · rw [List.mem_singleton.1 mem]
      exact loaded.lawful
  recorded := fun d mem x hx => by
    rcases List.mem_append.1 mem with mem | mem
    · exact (contents.recorded d mem x hx).grows loaded.grows
    · rw [List.mem_singleton.1 mem] at hx ⊢
      exact loaded.recorded compiles ideal contents.consistent x hx
  origin := fun u hu data row mem => by
    rcases loaded.origin compiles ideal contents.consistent hu mem with old | ⟨x, hx, origin⟩
    · obtain ⟨d, hd, x, hx, origin⟩ := contents.origin u hu data row old
      have known := (contents.recorded d hd x hx).known
      exact ⟨d, List.mem_append_left _ hd, x, hx, origin.grows loaded.grows known⟩
    · exact ⟨c, List.mem_append_right _ (List.mem_singleton.2 rfl), x, hx, origin⟩

theorem LoadState.loads_contents (enforce : Bool) {s : LoadState V} {done : List LoadCall} (sound : Sound vs m s)
    (contents : Contents vs m done s.database) (rooted : ∀ c ∈ calls, c.tree.RootedIn m)
    (all : s.AllLoad vs enforce calls) : Contents vs m (done ++ calls) (s.loads vs enforce calls).database := by
  induction calls generalizing s done with
  | nil =>
    rw [List.append_nil]
    exact contents
  | cons c rest ih =>
    obtain ⟨⟨report, loaded⟩, others⟩ := all
    obtain ⟨sound', ends⟩ := load_ends enforce compiles ideal sound (rooted c List.mem_cons_self)
    rw [loaded] at ends
    have next : Contents vs m (done ++ [c]) (s.load vs enforce c).2.database := by
      generalize (s.load vs enforce c).2.database = left at ends ⊢
      cases ends with
      | done checked loaded => exact contents.add compiles ideal loaded
    have last := ih sound' next (fun d mem => rooted d (List.mem_cons_of_mem _ mem)) others
    rw [List.append_assoc] at last
    exact last

theorem LoadState.founded_loads_contents (enforce : Bool) (rooted : ∀ c ∈ calls, c.tree.RootedIn m)
    (all : (LoadState.founded vs enforce m.schema).AllLoad vs enforce calls) :
    Contents vs m calls ((LoadState.founded vs enforce m.schema).loads vs enforce calls).database := by
  have start : Contents vs m [] (LoadState.founded vs enforce m.schema).database := by
    rw [LoadState.founded_database enforce compiles ideal]
    exact founded_contents compiles
  exact loads_contents compiles ideal enforce (founded_sound enforce compiles ideal) start rooted all

end Loading

namespace Contents

variable (contents : Contents vs m calls db) {x : Trail}
include contents

theorem lawful_of (bearing : BearingIn calls x) : Lawful m x.line := by
  obtain ⟨_, c, hc, hx⟩ := bearing
  exact contents.lawful c hc x hx

theorem knows (bearing : BearingIn calls x) : db.Knows vs x.line := by
  obtain ⟨_, c, hc, hx⟩ := bearing
  exact (contents.recorded c hc x hx).known

end Contents

end TreeStore
