import TreeStore.Proofs.Load.Pairs
import TreeStore.Proofs.Load.Stopping

/-! The counts of a load add up, whatever the store answers. Each node is counted once, as a container or with its row,
each node at a leaf once with its surroundings, and each node below another one once with their pair, if that is asked
for. What is counted as inserted is what the store has been asked to insert. -/

namespace TreeStore

open Loader

/-! ### What is counted -/

inductive Matter where
  | container
  | row
  | surroundings
  | pair
deriving DecidableEq

/-- How often something has come up, whether it was inserted or there already. -/
def LoadReport.tally (r : LoadReport) : Matter → Nat
  | .container => r.containers
  | .row => r.rowsInserted + r.rowsReused
  | .surroundings => r.relationshipsInserted + r.relationshipsSkipped
  | .pair => r.junctionsInserted + r.junctionsSkipped

def Trail.due (h : Hierarchy) (settings : LoadSettings) (x : Trail) : Matter → Bool
  | .container => !x.node.bears
  | .row => x.node.bears
  | .surroundings => x.node.bears && h.isLeaf x.node.type
  | .pair => x.node.bears && (settings.recordJunctions && x.above.head?.any Label.bears)

/-- Whether a request is a statement that begins with the word INSERT. -/
def Request.sendsInsert (r : Request) : Bool :=
  r.method != "columns_of" && "INSERT ".toList.isPrefixOf r.sql.toList

theorem Insert.sql_begins (i : Insert) : ∃ rest, i.sql.toList = "INSERT ".toList ++ rest := by
  unfold Insert.sql
  simp only [String.toList_append, List.append_assoc]
  exact ⟨_, rfl⟩

theorem Request.sendsInsert_eq (r : Request) :
    r.sendsInsert = (r.method == "insert_returning_id" || r.method == "execute_with") := by
  cases r with
  | create t => cases eq : t.sequence? <;> simp [sendsInsert, method, sql, Table.sql, eq, List.isPrefixOf]
  | select q => simp [sendsInsert, method, sql, Select.sql, List.isPrefixOf]
  | insert i =>
    obtain ⟨rest, text⟩ := i.sql_begins
    simp [sendsInsert, method, sql, text]
  | insertReturning i =>
    obtain ⟨rest, text⟩ := i.sql_begins
    simp [sendsInsert, method, sql, text]
  | columnsOf table => simp [sendsInsert, method]

theorem countP_sendsInsert (rs : List Request) : rs.countP (·.sendsInsert) =
    rs.countP (·.method == "insert_returning_id") + rs.countP (·.method == "execute_with") := by
  induction rs with
  | nil => rfl
  | cons r rest ih =>
    rw [List.countP_cons, List.countP_cons, List.countP_cons, ih, Request.sendsInsert_eq]
    cases r <;> simp [Request.method] <;> omega

/-! ### What a part of a load adds -/

namespace Loader

variable {σ α β : Type}

theorem run_eq (action : LoadM σ LoadReport) (columns : ColumnCache) (s : σ) : run action columns s =
    ((outcome action { store := s, columns }).1, (outcome action { store := s, columns }).2.columns,
      (outcome action { store := s, columns }).2.store) := rfl

theorem outcome_bind_eq_ok {x : LoadM σ α} {f : α → LoadM σ β} {p q : Progress σ} {b : β} :
    outcome (x >>= f) p = (.ok b, q) ↔ ∃ a w, outcome x p = (.ok a, w) ∧ outcome (f a) w = (.ok b, q) := by
  rw [outcome_bind]
  rcases outcome x p with ⟨error | a, w⟩ <;> simp

def asked (method : String) (p : Progress (σ × List Request)) : Nat := p.store.2.countP (·.method == method)

def once (m k : Matter) : Nat := if k = m then 1 else 0

/-- Each matter has come up so many times more, and what is counted as inserted has been asked to be inserted. -/
structure Adds (due : Matter → Nat) (p q : Progress (σ × List Request)) : Prop where
  tally : ∀ k, q.report.tally k = p.report.tally k + due k
  rows : asked "insert_returning_id" q + p.report.rowsInserted = asked "insert_returning_id" p + q.report.rowsInserted
  ids : asked "execute_with" q + (p.report.relationshipsInserted + p.report.junctionsInserted) =
    asked "execute_with" p + (q.report.relationshipsInserted + q.report.junctionsInserted)

structure Reads (p q : Progress (σ × List Request)) : Prop where
  report : q.report = p.report
  rows : asked "insert_returning_id" q = asked "insert_returning_id" p
  ids : asked "execute_with" q = asked "execute_with" p

variable {due due' : Matter → Nat} {p q w : Progress (σ × List Request)}

theorem Adds.refl (p : Progress (σ × List Request)) : Adds (fun _ => 0) p p := ⟨fun _ => rfl, rfl, rfl⟩

theorem Adds.trans (first : Adds due p q) (second : Adds due' q w) : Adds (fun k => due k + due' k) p w where
  tally k := by rw [second.tally, first.tally, Nat.add_assoc]
  rows := by have := first.rows; have := second.rows; omega
  ids := by have := first.ids; have := second.ids; omega

theorem Reads.adds (first : Reads p q) (second : Adds due q w) : Adds due p w := by
  obtain ⟨report, rows, ids⟩ := first
  obtain ⟨tally, rows', ids'⟩ := second
  rw [report] at tally rows' ids'
  exact ⟨tally, rows ▸ rows', ids ▸ ids'⟩

section Parts

variable {store : Store σ} {h : Hierarchy} {settings : LoadSettings} {path : NodePath}

theorem ask_ends {r : Request} {a : r.Answer} (ended : outcome (ask store.logged path r) p = (.ok a, q)) :
    q.report = p.report ∧ ∀ method, asked method q = asked method p + if r.method = method then 1 else 0 := by
  rcases answered : store.logged.answer r p.store with ⟨error | b, s⟩
  · rw [outcome_ask_error answered] at ended
    cases ended
  · rw [outcome_ask_ok answered] at ended
    cases ended
    have log : s.2 = p.store.2 ++ [r] := (congrArg (·.2.2) answered).symm
    exact ⟨rfl, fun method => by simp [asked, log, List.countP_append, List.countP_cons]⟩

theorem ask_reads {r : Request} {a : r.Answer} (ended : outcome (ask store.logged path r) p = (.ok a, q))
    (quiet : r.sendsInsert = false) : Reads p q := by
  obtain ⟨report, asks⟩ := ask_ends ended
  rw [Request.sendsInsert_eq] at quiet
  obtain ⟨rows, ids⟩ := Bool.or_eq_false_iff.1 quiet
  exact ⟨report, by simpa [asks] using rows, by simpa [asks] using ids⟩

theorem columnsOf_ends {table : String} {columns : List CatalogColumn}
    (ended : outcome (columnsOf store.logged path table) p = (.ok columns, q)) : Reads p q := by
  cases known : p.columns.get? (Text.lower table) with
  | some found =>
    rw [columnsOf_known _ path known] at ended
    cases ended
    exact ⟨rfl, rfl, rfl⟩
  | none =>
    rw [columnsOf_unknown _ path known, outcome_bind_eq_ok] at ended
    obtain ⟨found, w, asks, remembers⟩ := ended
    have read : Reads p w := ask_reads asks (Request.sendsInsert_eq _)
    unfold remember at remembers
    split at remembers
    · cases remembers
    · cases remembers
      exact ⟨read.report, read.rows, read.ids⟩

theorem lift_ends {x : Except LoadError α} {a : α} {p q : Progress σ}
    (ended : outcome (liftM x : LoadM σ α) p = (.ok a, q)) :
    x = .ok a ∧ q = p := by
  cases x with
  | error error => cases ended
  | ok b =>
    cases ended
    exact ⟨rfl, rfl⟩

theorem findOrInsert_adds {type : String} {values : List (String × Option Operand)} {id : Int}
    (ended : outcome (findOrInsert store.logged path type values) p = (.ok id, q)) : Adds (once .row) p q := by
  obtain ⟨rows, w, looks, ended⟩ := outcome_bind_eq_ok.1 ended
  refine (ask_reads looks (Request.sendsInsert_eq _)).adds ?_
  cases rows with
  | cons row _ =>
    dsimp only at ended
    split at ended
    · cases ended
    · cases ended
      refine ⟨fun k => ?_, rfl, rfl⟩
      cases k <;> rfl
  | nil =>
    obtain ⟨id, v, inserts, ended⟩ := outcome_bind_eq_ok.1 ended
    obtain ⟨report, asks⟩ := ask_ends inserts
    cases ended
    refine ⟨fun k => ?_, ?_, ?_⟩
    · cases k <;> simp [LoadReport.tally, report, once, Nat.add_right_comm]
    · have := asks "insert_returning_id"
      simp [asked, report, Request.method] at this ⊢
      omega
    · have := asks "execute_with"
      simp [asked, report, Request.method] at this ⊢
      omega

theorem insertUnlessPresent_ends {table : String} {ids : List (String × Int)} {nulls : List String} {new : Bool}
    (ended : outcome (insertUnlessPresent store.logged path table ids nulls) p = (.ok new, q)) :
    q.report = p.report ∧ asked "insert_returning_id" q = asked "insert_returning_id" p ∧
      asked "execute_with" q = asked "execute_with" p + new.toNat := by
  obtain ⟨rows, w, looks, ended⟩ := outcome_bind_eq_ok.1 ended
  obtain ⟨report, same, same'⟩ := ask_reads looks (Request.sendsInsert_eq _)
  split at ended
  · obtain ⟨_, v, inserts, ended⟩ := outcome_bind_eq_ok.1 ended
    obtain ⟨report', asks⟩ := ask_ends inserts
    cases ended
    exact ⟨report'.trans report, by rw [asks, same]; rfl, by rw [asks, same']; rfl⟩
  · cases ended
    exact ⟨report, same, same'⟩

theorem count_ends {f : LoadReport → LoadReport} {p q : Progress σ} (ended : outcome (count f) p = (.ok (), q)) :
    q = { p with report := f p.report } := by
  cases ended
  rfl

/-- A row of ids that is counted as inserted has been. -/
theorem note_adds {table : String} {ids : List (String × Int)} {nulls : List String} {new : Bool}
    {note : Bool → LoadReport → LoadReport} {m : Matter}
    (inserts : outcome (insertUnlessPresent store.logged path table ids nulls) p = (.ok new, w))
    (tally : ∀ r k, (note new r).tally k = r.tally k + once m k)
    (rows : ∀ r, (note new r).rowsInserted = r.rowsInserted)
    (noted : ∀ r, (note new r).relationshipsInserted + (note new r).junctionsInserted =
      r.relationshipsInserted + r.junctionsInserted + new.toNat)
    (counts : outcome (count (note new)) w = (.ok (), q)) : Adds (once m) p q := by
  obtain ⟨report, same, more⟩ := insertUnlessPresent_ends inserts
  obtain rfl := count_ends counts
  refine ⟨fun k => by rw [tally, report], ?_, ?_⟩
  · rw [rows, report]
    exact congrArg (· + _) same
  · have all : asked "execute_with" { w with report := note new w.report } = asked "execute_with" p + new.toNat := more
    rw [all, noted, report]
    omega

theorem tally_noteRelationship (new : Bool) (r : LoadReport) (k : Matter) :
    (noteRelationship new r).tally k = r.tally k + once .surroundings k := by
  cases new <;> cases k <;> simp [noteRelationship, LoadReport.tally, once] <;> omega

theorem tally_noteJunction (new : Bool) (r : LoadReport) (k : Matter) :
    (noteJunction new r).tally k = r.tally k + once .pair k := by
  cases new <;> cases k <;> simp [noteJunction, LoadReport.tally, once] <;> omega

theorem surround_adds {type : String} {context : Context}
    (ended : outcome (surround store.logged h path type context) p = (.ok (), q)) :
    Adds (fun k => if h.isLeaf type then once .surroundings k else 0) p q := by
  unfold surround at ended
  cases leaf : h.isLeaf type with
  | false =>
    rw [leaf] at ended
    cases ended
    exact .refl p
  | true =>
    rw [leaf, if_pos rfl] at ended
    obtain ⟨columns, w, reads, ended⟩ := outcome_bind_eq_ok.1 ended
    obtain ⟨new, v, inserts, ended⟩ := outcome_bind_eq_ok.1 ended
    have counts : outcome (count (noteRelationship new)) v = (.ok (), q) := by
      cases new <;> exact ended
    refine (columnsOf_ends reads).adds (note_adds inserts (tally_noteRelationship new) ?_ ?_ counts)
    · cases new <;> exact fun _ => rfl
    · cases new <;> simp [noteRelationship, Nat.add_right_comm]

theorem pair_adds {parent : Option (String × Int)} {child : String × Int}
    (registered : ∀ p ∈ parent, (h.relation? p.1 child.1).isSome = true)
    (ended : outcome (pair store.logged h settings path parent child) p = (.ok (), q)) :
    Adds (fun k => if settings.recordJunctions && parent.isSome then once .pair k else 0) p q := by
  unfold pair at ended
  cases parent with
  | none =>
    cases ended
    simpa using Adds.refl p
  | some parent =>
    cases asked : settings.recordJunctions with
    | false =>
      rw [asked] at ended
      cases ended
      exact .refl p
    | true =>
      obtain ⟨relation, found⟩ := Option.isSome_iff_exists.1 (registered parent rfl)
      rw [asked] at ended
      dsimp only at ended
      rw [if_pos rfl, recordJunction_eq _ h path found] at ended
      obtain ⟨columns, w, reads, ended⟩ := outcome_bind_eq_ok.1 ended
      obtain ⟨_, v, fits, ended⟩ := outcome_bind_eq_ok.1 ended
      obtain ⟨new, u, inserts, counts⟩ := outcome_bind_eq_ok.1 ended
      obtain rfl := (lift_ends fits).2
      refine (columnsOf_ends reads).adds (note_adds inserts (tally_noteJunction new) ?_ ?_ counts)
      · cases new <;> exact fun _ => rfl
      · cases new <;> simp [noteJunction, Nat.add_assoc]

theorem upsert_adds {type : String} {attributes : TextMap String} {id : Int}
    (ended : outcome (upsert store.logged h path type attributes) p = (.ok id, q)) : Adds (once .row) p q := by
  rw [upsert_eq] at ended
  obtain ⟨columns, w, reads, ended⟩ := outcome_bind_eq_ok.1 ended
  obtain ⟨values, v, fits, finds⟩ := outcome_bind_eq_ok.1 ended
  obtain rfl := (lift_ends fits).2
  exact (columnsOf_ends reads).adds (findOrInsert_adds finds)

def HandedDown (parent : Option (String × Int)) (above : List Label) : Prop :=
  parent.map (·.1) = (above.head?.filter Label.bears).map (·.type)

theorem HandedDown.isSome {parent : Option (String × Int)} {above : List Label} (handed : HandedDown parent above) :
    parent.isSome = above.head?.any Label.bears := by
  have same := congrArg Option.isSome handed
  rw [Option.isSome_map, Option.isSome_map] at same
  rw [same]
  cases above with
  | nil => rfl
  | cons l rest => cases bears : l.bears <;> simp [bears, Option.filter]

/-- A tree that has passed the check has no pair without a relation. -/
theorem HandedDown.known {x : Trail} {parent : Option (String × Int)} (handed : HandedDown parent x.above)
    (registered : x.Registered h) : ∀ p ∈ parent, (h.relation? p.1 x.node.type).isSome = true := by
  rintro p rfl
  obtain ⟨l, near, type⟩ := Option.map_eq_some_iff.1 (Eq.symm handed)
  rw [← show l.type = p.1 from type]
  exact registered l (Option.filter_eq_some_iff.1 near).1

theorem visitNode_adds {x : Trail} {parent : Option (String × Int)} {context : Context}
    {found : Option Int × Context} (registered : x.Registered h) (handed : HandedDown parent x.above)
    (ended : outcome (visitNode store.logged h settings x.path parent context x.node.type x.node.attributes) p =
      (.ok found, q)) :
    Adds (fun k => if x.due h settings k then 1 else 0) p q ∧ HandedDown (found.1.map (x.node.type, ·)) x.line := by
  cases bears : x.node.bears with
  | false =>
    have empty : x.node.attributes.isEmpty = true := by simpa [Label.bears] using bears
    unfold visitNode at ended
    rw [empty, if_pos rfl] at ended
    cases ended
    refine ⟨⟨fun k => ?_, rfl, rfl⟩, by simp [HandedDown, Trail.line, bears]⟩
    cases k <;> simp [LoadReport.tally, Trail.due, bears]
  | true =>
    have bearing : x.node.attributes.isEmpty = false := by simpa [Label.bears] using bears
    rw [visitNode_bearing _ h settings x.path parent context x.node.type bearing] at ended
    obtain ⟨id, u, upserts, ended⟩ := outcome_bind_eq_ok.1 ended
    obtain ⟨_, v, surrounds, ended⟩ := outcome_bind_eq_ok.1 ended
    obtain ⟨_, w, pairs, ended⟩ := outcome_bind_eq_ok.1 ended
    cases ended
    have all := ((upsert_adds upserts).trans (surround_adds surrounds)).trans
      (pair_adds (handed.known registered) pairs)
    have due : (fun k => if x.due h settings k then 1 else 0) = fun k => once .row k +
        (if h.isLeaf x.node.type then once .surroundings k else 0) +
          if settings.recordJunctions && parent.isSome then once .pair k else 0 := by
      funext k
      rw [handed.isSome]
      cases k <;> simp [Trail.due, once, bears]
    rw [due]
    exact ⟨all, by simp [HandedDown, Trail.line, bears]⟩

mutual

theorem visit_adds (path : NodePath) (above : List Label) {parent : Option (String × Int)} {context : Context} :
    (t : Tree) → {p q : Progress (σ × List Request)} →
    (registered : ∀ x ∈ t.trailsAt path above, x.Registered h) → (handed : HandedDown parent above) →
    (ended : outcome (visit store.logged h settings path parent context t) p = (.ok (), q)) →
    Adds (fun k => (t.trailsAt path above).countP (·.due h settings k)) p q
  | ⟨type, attributes, children⟩, p, q, registered, handed, ended => by
    rw [visit] at ended
    obtain ⟨found, w, own, below⟩ := outcome_bind_eq_ok.1 ended
    obtain ⟨first, handed'⟩ := visitNode_adds (x := ⟨path, ⟨type, attributes⟩, above⟩)
      (registered _ List.mem_cons_self) handed own
    have others := visitChildren_adds path (⟨type, attributes⟩ :: above) 0 children
      (fun x mem => registered x (List.mem_cons_of_mem _ mem)) handed' below
    simp only [Tree.trailsAt, List.countP_cons, Nat.add_comm (List.countP _ _)]
    exact first.trans others

theorem visitChildren_adds (path : NodePath) (above : List Label) (index : Nat) {parent : Option (String × Int)}
    {context : Context} : (ts : List Tree) → {p q : Progress (σ × List Request)} →
    (registered : ∀ x ∈ Tree.trailsBelow path above index ts, x.Registered h) → (handed : HandedDown parent above) →
    (ended : outcome (visitChildren store.logged h settings path parent context index ts) p = (.ok (), q)) →
    Adds (fun k => (Tree.trailsBelow path above index ts).countP (·.due h settings k)) p q
  | [], p, q, _, _, ended => by
    cases ended
    exact .refl p
  | c :: rest, p, q, registered, handed, ended => by
    rw [visitChildren] at ended
    obtain ⟨_, w, first, others⟩ := outcome_bind_eq_ok.1 ended
    have own := visit_adds (path.child c.type index) above c
      (fun x mem => registered x (List.mem_append_left _ mem)) handed first
    have later := visitChildren_adds path above (index + 1) rest
      (fun x mem => registered x (List.mem_append_right _ mem)) handed others
    simp only [Tree.trailsBelow, List.countP_append]
    exact own.trans later

end

/-- Once a tree has passed the check, a load counts what comes up at its nodes, from nothing on. -/
theorem loadWith_adds {t : Tree} {report : LoadReport}
    (loaded : outcome (loadWith store.logged h settings t) p = (.ok report, q)) :
    q.report = report ∧ Adds (fun k => t.trails.countP (·.due h settings k)) { p with report := {} } q := by
  unfold loadWith at loaded
  cases checked : t.check h settings.maxDepth with
  | error found =>
    rw [checked] at loaded
    cases loaded
  | ok =>
    rw [checked] at loaded
    dsimp only at loaded
    rw [outcome_bind_ok (outcome_modify _ p)] at loaded
    obtain ⟨_, w, visits, ended⟩ := outcome_bind_eq_ok.1 loaded
    cases ended
    have conforms := Tree.conforms_iff.1 (Tree.check_eq_ok.1 checked)
    have top : HandedDown none [] := rfl
    exact ⟨rfl, visit_adds ⟨t.type, []⟩ [] t (fun x mem => (conforms x mem).registered) top visits⟩

end Parts

end Loader

/-! ### Reports -/

theorem Tree.countP_edges (t : Tree) : t.edges.countP (fun e => e.1.bears && e.2.bears) =
    t.trails.countP fun x => x.node.bears && x.above.head?.any Label.bears := by
  have all : t.trails.filterMap Trail.edge? = t.edges := trailsAt_edges _ [] t
  rw [← all, List.countP_filterMap]
  refine List.countP_congr fun x _ => ?_
  cases above : x.above.head? <;> simp [Trail.edge?, above, Bool.and_comm]

/-- A report counts each node of a tree, each at a leaf and each edge for what it is, and counts as inserted just what
has been asked to be inserted. -/
structure LoadReport.Balances (h : Hierarchy) (settings : LoadSettings) (t : Tree) (r : LoadReport)
    (calls : List Request) : Prop where
  containers : r.containers = t.trails.countP fun x => !x.node.bears
  rows : r.rowsInserted + r.rowsReused = t.trails.countP fun x => x.node.bears
  nodes : r.containers + (r.rowsInserted + r.rowsReused) = t.nodeCount
  leaves : r.relationshipsInserted + r.relationshipsSkipped =
    t.trails.countP fun x => x.node.bears && h.isLeaf x.node.type
  pairs : r.junctionsInserted + r.junctionsSkipped =
    if settings.recordJunctions then t.edges.countP fun e => e.1.bears && e.2.bears else 0
  returning : calls.countP (·.method == "insert_returning_id") = r.rowsInserted
  executing : calls.countP (·.method == "execute_with") = r.relationshipsInserted + r.junctionsInserted
  total : r.totalInserted = calls.countP (·.sendsInsert)

theorem Loader.Adds.balances {σ : Type} {h : Hierarchy} {settings : LoadSettings} {t : Tree} {s : σ}
    {columns : ColumnCache} {q : Progress (σ × List Request)}
    (adds : Adds (fun k => t.trails.countP (·.due h settings k)) ⟨(s, []), columns, {}⟩ q) :
    q.report.Balances h settings t q.store.2 := by
  have containers := adds.tally .container
  have rows := adds.tally .row
  have leaves := adds.tally .surroundings
  have pairs := adds.tally .pair
  have returning : asked "insert_returning_id" q = q.report.rowsInserted := by simpa [asked] using adds.rows
  have executing : asked "execute_with" q = q.report.relationshipsInserted + q.report.junctionsInserted := by
    simpa [asked] using adds.ids
  simp only [LoadReport.tally, Trail.due, Nat.zero_add] at containers rows leaves pairs
  refine ⟨containers, rows, ?_, leaves, ?_, returning, executing, ?_⟩
  · -- Every node has attributes or has none.
    rw [containers, rows, ← t.length_trails, List.length_eq_countP_add_countP fun x : Trail => x.node.bears]
    simp [Nat.add_comm]
  · rw [pairs, t.countP_edges]
    cases settings.recordJunctions <;> simp
  · rw [countP_sendsInsert, LoadReport.totalInserted, Nat.add_assoc, ← returning, ← executing]
    rfl

/-- Whatever the store answers, the report of a load that succeeds balances. -/
theorem report_balances {σ : Type} (store : Store σ) (h : Hierarchy) (settings : LoadSettings) (t : Tree)
    (columns : ColumnCache) (s : σ) {report : LoadReport} {columns' : ColumnCache} {s' : σ}
    (loaded : run (loadWith store h settings t) columns s = (.ok report, columns', s')) :
    ∃ calls, run (loadWith store.logged h settings t) columns (s, []) = (.ok report, columns', s', calls) ∧
      report.Balances h settings t calls := by
  obtain ⟨result, matched⟩ := store.logged_mirrors.coupling.loadWith h settings t { store := (s, []), columns }
    { store := s, columns } ⟨rfl, rfl, rfl⟩
  rcases ended : outcome (loadWith store.logged h settings t) { store := (s, []), columns } with ⟨own, q⟩
  rw [ended] at result matched
  have same : run (loadWith store h settings t) columns s = (own, q.columns, q.store.1) := by
    rw [run_eq, ← result, ← matched.columns, ← matched.stores]
  rw [same] at loaded
  cases loaded
  obtain ⟨rfl, adds⟩ := loadWith_adds ended
  exact ⟨q.store.2, by rw [run_eq, ended], adds.balances⟩

namespace Sample

/-- A store that has the same columns for every table, and finds a row every other time that it is asked. -/
def fickle : Store Nat where
  answer r s := match r with
    | .create _ => (.ok (), s)
    | .select _ => (.ok (if s % 2 = 0 then [] else [[some "7"]]), s + 1)
    | .insert _ => (.ok (), s)
    | .insertReturning _ => (.ok s, s)
    | .columnsOf _ => (.ok (["id", "n", "size", "Box_id", "Item_id"].map (⟨·, "VARCHAR"⟩)), s)

def filled : Tree := ⟨"Box", .ofList [("size", "7")], [⟨"Item", .ofList [("n", "x")], []⟩,
  ⟨"Item", .empty, []⟩, ⟨"Item", .ofList [("n", "y")], []⟩]⟩

def filledReport : LoadReport where
  rowsInserted := 2
  rowsReused := 1
  containers := 1
  relationshipsInserted := 1
  relationshipsSkipped := 1
  junctionsInserted := 1
  junctionsSkipped := 1

end Sample

theorem report_balances_fickle : ∃ columns s calls,
    run (loadWith Sample.fickle Sample.boxes.hierarchy {} Sample.filled) .empty 0 =
      (.ok Sample.filledReport, columns, s) ∧
    Sample.filledReport.Balances Sample.boxes.hierarchy {} Sample.filled calls := by
  have result : (run (loadWith Sample.fickle Sample.boxes.hierarchy {} Sample.filled) .empty 0).1 =
      .ok Sample.filledReport := by decide +kernel
  rcases ended : run (loadWith Sample.fickle Sample.boxes.hierarchy {} Sample.filled) .empty 0 with ⟨_, columns, s⟩
  rw [ended] at result
  obtain rfl := result
  obtain ⟨calls, _, balances⟩ := report_balances _ _ _ _ _ _ ended
  exact ⟨columns, s, calls, rfl, balances⟩

end TreeStore
