import TreeStore.Proofs.Sql.Run

/-! What a definition says can be read from its text, so definitions with one text are one, but for the kind of the
table, which is not in it. The text of a schema falls into the pieces of its statements. -/

namespace TreeStore

open Sql

theorem Table.Legible.eq_of_sql {t u : Table} (ht : t.Legible) (hu : u.Legible) (same : t.sql = u.sql) :
    u = { t with kind := u.kind } := by
  have creates : (Statement.create t).Legible := ht
  have creates' : (Statement.create u).Legible := hu
  have commands : (Statement.create t).commands = (Statement.create u).commands :=
    Option.some.inj (creates.sql_commands.symm.trans ((congrArg commands? same).trans creates'.sql_commands))
  obtain ⟨name, kind, columns, key, sequence⟩ := t
  obtain ⟨name', kind', columns', key', sequence'⟩ := u
  cases sequence <;> cases sequence' <;> simp_all [Statement.commands, definition]

/-! ### Entries -/

def Sql.Command.entry? : Command → Option HierarchyEntry
  | .insert ⟨table, [(c₁, ⟨.text parent, none⟩), (c₂, ⟨.text child, none⟩), (c₃, ⟨.text relation, none⟩)]⟩ =>
    if table = Schema.registryTable ∧ [c₁, c₂, c₃] = [Schema.parentColumn, Schema.childColumn, Schema.relationColumn]
    then some ⟨parent, child, relation⟩ else none
  | _ => none

theorem HierarchyEntry.sql_entry (e : HierarchyEntry) : ∃ c, commands? e.sql = some [c] ∧ c.entry? = some e := by
  have registers : (Statement.register e).Legible := trivial
  exact ⟨_, registers.sql_commands, rfl⟩

/-! ### The number of pieces -/

/-- A statement is one piece, and one more for a sequence. -/
theorem Statement.pieces_length (stmts : List Statement) : (stmts.flatMap (·.pieces)).length =
    stmts.length + ((stmts.filterMap (·.table?)).filter (·.sequence?.isSome)).length := by
  induction stmts with
  | nil => rfl
  | cons stmt rest ih =>
    rw [List.flatMap_cons, List.length_append, ih]
    cases stmt with
    | create t => cases sequence : t.sequence? <;> simp [pieces, table?, sequence] <;> omega
    | register e => simp [pieces, table?]; omega

/-- The tables with a sequence are those of entities. -/
theorem Model.WellNamed.sequence_iff {m : Model} (named : m.WellNamed) {t : Table} (mem : t ∈ m.tables) :
    t.sequence?.isSome = decide (t.kind = .entity) := by
  rcases named.mem_tables mem with rfl | ⟨e, _, created, rfl⟩ | ⟨e, _, r, _, rfl⟩ | ⟨e, _, _, rfl⟩ <;> rfl

theorem Model.Compiles.pieces_length {m : Model} (compiles : m.Compiles) :
    (m.schema.statements.flatMap (·.pieces)).length =
      m.schema.statements.length + (m.schema.tablesOf .entity).length := by
  have tables : m.schema.statements.filterMap (·.table?) = m.tables := m.schema_tables
  rw [Statement.pieces_length, Schema.tablesOf, m.schema_tables, tables,
    List.filter_congr fun t mem => compiles.wellNamed.sequence_iff mem]

/-! ### Texts read back -/

/-- The text of a definition reads as its sequence, if there is one, and its table, and no other definition has it but
for the kind. The text that registers an entry reads as that entry. The text of a schema falls into the pieces of its
statements, in their order: as many as there are statements and tables of entities. -/
theorem sql_reads_back :
    (∀ t : Table, t.Legible →
      commands? t.sql = some ((t.sequence?.map .createSequence).toList ++ [.createTable t.definition]) ∧
      ∀ u : Table, u.Legible → t.sql = u.sql → u = { t with kind := u.kind }) ∧
    (∀ e : HierarchyEntry, ∃ c, commands? e.sql = some [c] ∧ c.entry? = some e) ∧
    ∀ (m : Model) (s : Schema), Schema.ofModel m = .ok s →
      pieces? s.script = some (s.statements.flatMap (·.pieces)) ∧
      (s.statements.flatMap (·.pieces)).length = s.statements.length + (s.tablesOf .entity).length ∧
      ∀ stmt ∈ s.statements, pieces? stmt.sql = some stmt.pieces ∧ stmt.pieces.mapM command? = some stmt.commands := by
  refine ⟨fun t legible => ⟨?_, fun u => legible.eq_of_sql⟩, fun e => e.sql_entry, fun m s compiled => ?_⟩
  · have creates : (Statement.create t).Legible := legible
    exact creates.sql_commands
  · obtain ⟨rfl, compiles⟩ := ofModel_ok.1 compiled
    exact ⟨Schema.script_pieces compiles.legible, compiles.pieces_length, fun stmt mem =>
      ⟨(compiles.legible stmt mem).sql_pieces, (compiles.legible stmt mem).pieces_commands⟩⟩

namespace Sample

/-- Marks, semicolons and ends of lines wherever a name may stand. -/
def marked : Table where
  name := "a\"; b"
  kind := .entity
  columns :=
    [{ name := "\"", type := "BIGINT", primaryKey := true, default? := some (.next "seq;") },
      { name := "x\n);", type := "VARCHAR", notNull := true, references? := some "\" (\"" }]
  primaryKey := ["\"", "',"]
  sequence? := some "seq;"

theorem marked_legible : marked.Legible where
  columns := by decide
  each := by
    intro c mem
    rcases List.mem_pair.1 mem with rfl | rfl
    · exact ⟨⟨.integer, rfl⟩, fun d default => ⟨"seq;", (Option.some.inj default).symm, by decide⟩⟩
    · exact ⟨⟨.text, rfl⟩, fun d default => nomatch default⟩

end Sample

/-- A table of another kind has the same text. -/
theorem sql_reads_back_marked :
    commands? Sample.marked.sql = some [.createSequence "seq;", .createTable Sample.marked.definition] ∧
    (∃ u ≠ Sample.marked, Sample.marked.sql = u.sql ∧ u = { Sample.marked with kind := u.kind }) ∧
    (∃ c, commands? (HierarchyEntry.sql ⟨"it's", "'); ", "\n"⟩) = some [c] ∧ c.entry? = some ⟨"it's", "'); ", "\n"⟩) ∧
    ∃ pss, pieces? Sample.boxes.schema.script = some pss ∧ pss.length = 8 := by
  obtain ⟨tables, entries, schemas⟩ := sql_reads_back
  obtain ⟨read, unique⟩ := tables Sample.marked Sample.marked_legible
  have legible : Table.Legible { Sample.marked with kind := .junction } :=
    ⟨Sample.marked_legible.columns, Sample.marked_legible.each⟩
  obtain ⟨split, count, _⟩ := schemas _ _ Sample.boxes_compile
  exact ⟨read, ⟨{ Sample.marked with kind := .junction }, by decide, rfl, unique _ legible rfl⟩, entries _, _, split,
    count.trans (by decide)⟩

end TreeStore
