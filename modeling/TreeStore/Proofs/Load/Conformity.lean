import TreeStore.Proofs.Load.Declared
import TreeStore.Proofs.Load.Session

/-! Loading trees that conform to a model. The tables and columns that are looked up are there, and a tree that
passes the check and carries declared attributes only is loaded, unless a value cannot be read or all ids have been
given out. -/

namespace TreeStore

open Database Loader

def Tree.Declares (m : Model) (t : Tree) : Prop :=
  ∀ x ∈ t.trails, ∀ e ∈ m.entities, e.name.text = x.node.type → DeclaredOn e x.node.attributes

def Tree.Readable {V : Type} (vs : ValueSystem V) (m : Model) (t : Tree) : Prop :=
  ∀ x ∈ t.trails, ∀ e ∈ m.entities, e.name.text = x.node.type → ReadableOn vs e x.node.attributes

/-- The tables and columns that loading looks up are there, and their types may stand in a cast. -/
structure Provides {V : Type} (m : Model) (db : Database V) : Prop where
  entity : ∀ e ∈ m.entities, (∃ c ∈ db.columnsOf e.name.text, c.name = Schema.idColumn) ∧
    ∀ a ∈ e.attributes, ∃ c ∈ db.columnsOf e.name.text, c.name = a.name.text
  leaf : ∀ e ∈ m.entities, e.relations = [] →
    ∃ c ∈ db.columnsOf (Schema.relationshipsTable e.name.text), c.name = Schema.contextColumn e.name.text
  junction : ∀ e ∈ m.entities, ∀ r ∈ e.relations,
    (∃ c ∈ db.columnsOf (Schema.junctionTable e.name.text r.name.text), c.name = Schema.contextColumn e.name.text) ∧
      ∃ c ∈ db.columnsOf (Schema.junctionTable e.name.text r.name.text),
        c.name = Schema.junctionTarget e.name.text r.target.text
  plain : ∀ t ∈ m.tables, ∀ c ∈ db.columnsOf t.name, isPlainType c.type = true

def nodeTotal (calls : List LoadCall) : Nat := calls.foldr (fun c n => c.tree.nodeCount + n) 0

variable {V : Type} {vs : ValueSystem V} {m : Model}

/-! ### Looking up -/

theorem Database.Consistent.columnsOf {db : Database V} (consistent : Consistent vs m db) (compiles : m.Compiles)
    {t : Table} (mem : t ∈ m.tables) : db.columnsOf t.name = catalog vs t := by
  rw [Database.columnsOf, consistent.table? compiles mem]
  rfl

theorem mem_catalog {t : Table} {c : CatalogColumn} :
    c ∈ catalog vs t ↔ ∃ d ∈ t.columns, c = ⟨d.name, catalogType vs d.type⟩ := by
  simp only [catalog, stored, List.map_map, List.mem_map, eq_comm]
  rfl

theorem Database.Consistent.column {db : Database V} (consistent : Consistent vs m db) (compiles : m.Compiles)
    {t : Table} (mem : t ∈ m.tables) {d : Column} (hd : d ∈ t.columns) :
    ∃ c ∈ db.columnsOf t.name, c.name = d.name := by
  rw [consistent.columnsOf compiles mem]
  exact ⟨_, mem_catalog.2 ⟨d, hd, rfl⟩, rfl⟩

theorem provides (compiles : m.Compiles) (ideal : vs.Ideal) {db : Database V} (consistent : Consistent vs m db) :
    Provides m db where
  entity := fun e he => by
    obtain ⟨created, mem⟩ := compiles.entityTable_mem he
    have column {d : Column} (hd : d ∈ (Schema.entityTable created e).columns) := consistent.column compiles mem hd
    refine ⟨column List.mem_cons_self, fun a ha => ?_⟩
    exact column (List.mem_append_left _ (List.mem_cons_of_mem _ (List.mem_map.2 ⟨a, ha, rfl⟩)))
  leaf := fun e he none => by
    have mem := Model.Compiles.relationships_mem he ((compiles.wellNamed.isLeaf_iff he).2 none)
    have own : Schema.context e.name.text ∈ (Schema.relationships m m.hierarchy e.name).columns :=
      List.mem_append_right _ (List.mem_singleton.2 rfl)
    exact consistent.column compiles mem own
  junction := fun e he r hr => by
    have mem := Model.Compiles.junction_mem he hr
    have column {d : Column} (hd : d ∈ (Schema.junction e.name r).columns) := consistent.column compiles mem hd
    exact ⟨column List.mem_cons_self, column (List.mem_cons_of_mem _ List.mem_cons_self)⟩
  plain := fun t ht c hc => by
    rw [consistent.columnsOf compiles ht] at hc
    obtain ⟨d, hd, rfl⟩ := mem_catalog.1 hc
    obtain ⟨kind, type⟩ := compiles.table_types ht hd
    rw [type]
    exact ideal.plain kind

/-! ### Numbers given out -/

def Database.Below (k : Int) (db : Database V) : Prop := ∀ q n, db.next? q = some n → n ≤ k

namespace Database.Below

variable {settings : LoadSettings} {x : Trail} {xs : List Trail} {db db' : Database V} {report report' : LoadReport}
  {k : Int}

theorem mono {k' : Int} (below : db.Below k) (le : k ≤ k') : db.Below k' := fun q n next => by
  have bound := below q n next
  omega

theorem draw (below : db.Below k) (name : String) : (db.draw name).Below (k + 1) := by
  intro q n next
  rw [next?_draw] at next
  obtain ⟨i, first, rfl⟩ := Option.map_eq_some_iff.1 next
  have bound := below q i first
  split <;> omega

theorem noted {table : String} {row : Cells V} {new : Bool} (below : db.Below k) (noted : Noted table row db new db') :
    db'.Below k := by
  cases noted with
  | present there => exact below
  | added new => exact below

theorem loaded (below : db.Below k) (loaded : NodeLoaded vs m settings x db report db' report') :
    db'.Below (k + 1) := by
  cases loaded with
  | container container => exact below.mono (by omega)
  | @bearing t n db₁ db₂ db₃ r₁ r₂ r₃ bears table fits castable upserted surrounded paired =>
    have first : db₁.Below (k + 1) := by
      cases upserted with
      | found first number => exact below.mono (by omega)
      | added new next left => exact below.draw _
    have second : db₂.Below (k + 1) := by
      cases surrounded with
      | inner inner => exact first
      | leaf entity name leaf noted => exact first.noted noted
    cases paired with
    | apart apart => exact second
    | pair asked entity own first target above id noted => exact second.noted noted

theorem run (below : db.Below k) (loaded : Loaded vs m settings xs db report db' report') :
    db'.Below (k + xs.length) := by
  induction loaded generalizing k with
  | nil db report => simpa using below
  | cons lawful knows first others ih =>
    refine (ih (below.loaded first)).mono ?_
    rw [List.length_cons]
    omega

theorem stopped {enforce : Bool} {error : LoadError} (below : db.Below k)
    (stopped : Stopped vs m enforce settings xs db report error db') : db'.Below (k + xs.length) := by
  obtain ⟨before, x, after, db₁, r₁, rfl, first, refused⟩ := stopped.refused
  have reached := below.run first
  have last : db'.Below (k + before.length + 1) := by
    cases refused with
    | mk bears table refused =>
      cases refused with
      | dangling fits castable new next left asked broken => exact reached.draw _
      | _ => exact reached.mono (by omega)
  refine last.mono ?_
  rw [List.length_append, List.length_cons]
  omega

theorem ends {enforce : Bool} {t : Tree} {result : Except LoadError LoadReport} (below : db.Below k)
    (ends : LoadEnds vs m enforce settings t db result db') : db'.Below (k + t.nodeCount) := by
  rw [← Tree.length_trails]
  cases ends with
  | violation bad => exact below.mono (by omega)
  | done checked loaded => exact below.run loaded
  | failed checked stopped => exact below.stopped stopped

end Database.Below

theorem founded_below : (Database.founded vs m).Below 1 := by
  intro q n next
  obtain ⟨s, found, rfl⟩ := Option.map_eq_some_iff.1 next
  obtain ⟨name, _, rfl⟩ := List.mem_map.1 (List.mem_of_find?_eq_some found)
  exact Int.le_refl 1

theorem LoadState.loads_below (compiles : m.Compiles) (ideal : vs.Ideal) (enforce : Bool) {s : LoadState V}
    {calls : List LoadCall} (sound : Sound vs m s) (rooted : ∀ c ∈ calls, c.tree.RootedIn m) {k : Int}
    (below : s.database.Below k) : (s.loads vs enforce calls).database.Below (k + nodeTotal calls) := by
  induction calls generalizing s k with
  | nil => exact below.mono (by simp [nodeTotal])
  | cons c rest ih =>
    obtain ⟨sound', ends⟩ := load_ends enforce compiles ideal sound (rooted c List.mem_cons_self)
    refine (ih sound' (fun d mem => rooted d (List.mem_cons_of_mem _ mem)) (below.ends ends)).mono ?_
    rw [nodeTotal, nodeTotal, List.foldr_cons]
    omega

/-! ### Conforming trees -/

theorem LoadEnds.conforming (compiles : m.Compiles) {enforce : Bool} {settings : LoadSettings} {t : Tree}
    {db db' : Database V} {result : Except LoadError LoadReport} (ends : LoadEnds vs m enforce settings t db result db')
    (checked : t.check m.hierarchy settings.maxDepth = .ok ()) (declared : t.Declares m) {k : Int}
    (below : db.Below k) :
    ((∃ report, result = .ok report) ∨ ∃ path, result = .error (.store path (.failed .execution none))) ∧
      (t.Readable vs m → (∃ report, result = .ok report) ∨ endOfSequence ≤ k + t.nodeCount) := by
  cases ends with
  | violation bad =>
    rw [checked] at bad
    cases bad
  | done _ loaded => exact ⟨.inl ⟨_, rfl⟩, fun _ => .inl ⟨_, rfl⟩⟩
  | failed _ stopped =>
    obtain ⟨before, x, after, db₁, r₁, eq, loaded, refused⟩ := stopped.refused
    have mem : x ∈ t.trails := by
      rw [eq]
      exact List.mem_append_right _ List.mem_cons_self
    obtain ⟨⟨path, rfl⟩, exhausted⟩ := refused.of_declared compiles (declared x mem)
    refine ⟨.inr ⟨path, rfl⟩, fun readable => .inr ?_⟩
    obtain ⟨q, n, next, reached⟩ := exhausted (readable x mem)
    -- Until the node that is refused, each node has drawn one number at most.
    have bound := below.run loaded q n next
    have length := congrArg List.length eq
    rw [Tree.length_trails, List.length_append, List.length_cons] at length
    omega

/-- A tree that passes the check and carries declared attributes only never fails on the schema, whatever has been
loaded before: what is looked up is there, and nothing but a value that cannot be read, or ids that have all been
given out, keeps it from being loaded. -/
theorem load_conforming (ideal : vs.Ideal) (enforce : Bool) {schema : Schema}
    (compiled : Schema.ofModel m = .ok schema) (calls : List LoadCall) (rooted : ∀ c ∈ calls, c.tree.RootedIn m)
    (c : LoadCall) (root : c.tree.RootedIn m)
    (checked : c.tree.check schema.hierarchy c.settings.maxDepth = .ok ()) (declared : c.tree.Declares m) :
    let s := (LoadState.founded vs enforce schema).loads vs enforce calls
    Provides m s.database ∧
      ((∃ report, (s.load vs enforce c).1 = .ok report) ∨
        ∃ path, (s.load vs enforce c).1 = .error (.store path (.failed .execution none))) ∧
      (c.tree.Readable vs m → (∃ report, (s.load vs enforce c).1 = .ok report) ∨
        endOfSequence ≤ 1 + (nodeTotal calls : Int) + c.tree.nodeCount) := by
  obtain ⟨rfl, compiles⟩ := ofModel_ok.1 compiled
  rw [m.schema_hierarchy] at checked
  have start := LoadState.founded_sound enforce compiles ideal
  have below : (LoadState.founded vs enforce m.schema).database.Below 1 := by
    rw [LoadState.founded_database enforce compiles ideal]
    exact founded_below
  have sound := LoadState.loads_sound enforce compiles ideal start rooted
  have reached := LoadState.loads_below compiles ideal enforce start rooted below
  have ends := (LoadState.load_ends enforce compiles ideal sound root).2
  exact ⟨provides compiles ideal sound.consistent, ends.conforming compiles checked declared reached⟩

/-- A box conforms, so it is loaded. -/
theorem load_conforming_box : Provides Sample.boxes Sample.start.database ∧
    ∃ report, (Sample.start.load ColumnValue.system true (Sample.loading "7" "x")).1 = .ok report := by
  have checked : (Sample.box "7" "x").check Sample.boxes.schema.hierarchy 48 = .ok () := by decide +kernel
  have declared : (Sample.box "7" "x").Declares Sample.boxes := by
    unfold Tree.Declares DeclaredOn
    decide +kernel
  have readable : (Sample.box "7" "x").Readable ColumnValue.system Sample.boxes := by
    unfold Tree.Readable ReadableOn
    decide +kernel
  obtain ⟨provides, _, loads⟩ := load_conforming ColumnValue.system_ideal true Sample.boxes_compile []
    (fun _ mem => nomatch mem) (Sample.loading "7" "x") (Sample.box_rooted "7" "x") checked declared
  refine ⟨provides, (loads readable).resolve_right ?_⟩
  decide +kernel

end TreeStore
