import TreeStore.Proofs.Sql.Command
import TreeStore.Schema.Basic
import TreeStore.Store.Registry

/-! What the text of a statement says: a script reads as the commands that its statements stand for, whatever
names there are in it. -/

namespace TreeStore

open Sql

/-! ### The tokens of statements -/

/-- The tokens of a default; an expression is not read. -/
def ColumnDefault.tokens : ColumnDefault → List Token
  | .next sequence => [.word "NEXTVAL", .open, .literal sequence, .close]
  | .expression _ => []

namespace Column

def constraintTokens (c : Column) : List (List Token) :=
  (if c.primaryKey then [[.word "PRIMARY", .word "KEY"]] else [])
    ++ (if c.notNull then [[.word "NOT", .word "NULL"]] else [])
    ++ (c.default?.map fun d => .word "DEFAULT" :: d.tokens).toList
    ++ (c.references?.map fun t =>
      [.word "REFERENCES", .name t, .open, .name Schema.idColumn, .close]).toList

def tokens (c : Column) : List Token := .name c.name :: .word c.type :: c.constraintTokens.flatten

/-- The type of a column is one of the known ones, and a default is a sequence whose name has no mark. -/
structure Legible (c : Column) : Prop where
  type : ∃ kind : ScalarKind, c.type = kind.columnType
  default : ∀ d, c.default? = some d → ∃ q, d = .next q ∧ '\'' ∉ q.toList

end Column

namespace Table

def keyTokens (t : Table) : List Token :=
  .word "PRIMARY" :: .word "KEY" :: .open :: [.comma].intercalate (t.primaryKey.map fun k => [.name k])
    ++ [.close]

def parts (t : Table) : List (List Token) :=
  t.columns.map (·.tokens) ++ if t.primaryKey.isEmpty then [] else [t.keyTokens]

def tokens (t : Table) : List Token :=
  .word "CREATE" :: .word "TABLE" :: .name t.name :: .open :: [.comma].intercalate t.parts ++ [.close]

def definition (t : Table) : Definition where
  name := t.name
  columns := t.columns
  primaryKey := t.primaryKey

def sequenceTokens : Option String → List Token
  | some q =>
    [.word "CREATE", .word "SEQUENCE", .word "IF", .word "NOT", .word "EXISTS", .name q, .semicolon]
  | none => []

structure Legible (t : Table) : Prop where
  columns : t.columns ≠ []
  each : ∀ c ∈ t.columns, c.Legible

end Table

def HierarchyEntry.tokens (e : HierarchyEntry) : List Token :=
  .word "INSERT" :: .word "INTO" :: .name Schema.registryTable :: .open ::
    [.comma].intercalate
      ([Schema.parentColumn, Schema.childColumn, Schema.relationColumn].map fun n => [.name n])
    ++ [.close, .word "VALUES", .open]
    ++ [.comma].intercalate ([e.parent, e.child, e.relation].map fun v => [.literal v]) ++ [.close]

/-! ### Texts and tokens -/

namespace Sql

theorem open_opens : Opens " (" [.open] := rfl

theorem close_opens : Opens ")" [.close] := rfl

theorem stop_opens : Opens ";\n\n" [.semicolon] := rfl

end Sql

theorem Ident.double_of_not_mem {mark : Char} {cs : List Char} (plain : mark ∉ cs) :
    Ident.double mark cs = cs := by
  induction cs with
  | nil => rfl
  | cons c rest ih =>
    obtain ⟨first, others⟩ := not_or.1 (mt List.mem_cons.2 plain)
    rw [double, if_neg (Ne.symm first), ih others]

theorem nil_intercalate (tss : List (List Token)) : [].intercalate tss = tss.flatten := by
  induction tss with
  | nil => rfl
  | cons ts rest ih =>
    cases rest with
    | nil => simp
    | cons us rest => rw [List.intercalate_cons_cons, ih, List.append_nil, ← List.flatten_cons]

theorem ColumnDefault.next_reads {q : String} (plain : '\'' ∉ q.toList) :
    Reads (ColumnDefault.next q).sql (ColumnDefault.next q).tokens := by
  have text : (ColumnDefault.next q).sql = "nextval(" ++ Ident.quoteLiteral q ++ ")" := by
    rw [show (next q).sql = "nextval('" ++ q ++ "')" from rfl, ← String.toList_inj]
    simp [Ident.quoteLiteral, Ident.enclose, Ident.double_of_not_mem plain]
  have opens : Opens "nextval(" [.word "NEXTVAL", .open] := rfl
  rw [text]
  exact ((opens.reads (.quoteLiteral q)).opens rfl close_opens).toReads

theorem Column.constraints_read {c : Column} (legible : c.Legible) :
    List.Forall₂ Reads c.constraints c.constraintTokens := by
  refine List.rel_append (List.rel_append (List.rel_append ?_ ?_) ?_) ?_
  · split
    · exact .cons ⟨[.word "PRIMARY"], _, _, rfl, rfl, rfl⟩ .nil
    · exact .nil
  · split
    · exact .cons ⟨[.word "NOT"], _, _, rfl, rfl, rfl⟩ .nil
    · exact .nil
  · cases default : c.default? with
    | none => exact .nil
    | some d =>
      obtain ⟨q, rfl, plain⟩ := legible.default d default
      have opens : Opens "DEFAULT " [.word "DEFAULT"] := rfl
      exact .cons (opens.reads (ColumnDefault.next_reads plain)) .nil
  · cases c.references? with
    | none => exact .nil
    | some t =>
      have opens : Opens "REFERENCES " [.word "REFERENCES"] := rfl
      have table := (opens.reads (.quote t)).opens rfl open_opens
      have key := (table.reads (.quote Schema.idColumn)).opens rfl close_opens
      exact .cons key.toReads .nil

theorem Column.reads {c : Column} (legible : c.Legible) : Reads c.sql c.tokens := by
  obtain ⟨kind, type⟩ := legible.type
  have opens : Opens " " [] := rfl
  have parts := List.Forall₂.cons (Reads.quote c.name)
    (.cons (type ▸ Reads.columnType kind : Reads c.type [.word c.type]) (Column.constraints_read legible))
  have joined := opens.between rfl (by simp) parts
  rw [nil_intercalate] at joined
  exact joined

theorem Table.Legible.parts_read {t : Table} (legible : t.Legible) : List.Forall₂ Reads t.lines t.parts := by
  refine List.rel_append ?_ ?_
  · rw [List.forall₂_map_left_iff, List.forall₂_map_right_iff, List.forall₂_same]
    exact fun c mem => Column.reads (legible.each c mem)
  · cases key : t.primaryKey with
    | nil => exact .nil
    | cons k ks =>
      have opens : Opens "PRIMARY KEY (" [.word "PRIMARY", .word "KEY", .open] := rfl
      have names : Reads (quotedNames (k :: ks)) _ := .listed .quote (List.cons_ne_nil k ks)
      have line := ((opens.reads names).opens rfl close_opens).toReads
      rw [keyTokens, key]
      exact .cons line .nil

/-! ### Tokens and meanings -/

theorem Column.constrained {c : Column} (legible : c.Legible) :
    constrained? { name := c.name, type := c.type } c.constraintTokens.flatten = some c := by
  obtain ⟨name, type, notNull, primaryKey, default?, references?⟩ := c
  -- each of the four constraints is there or not
  cases primaryKey <;> cases notNull <;> cases references? <;> cases default? with
  | none => rfl
  | some d =>
    obtain ⟨q, rfl, _⟩ := legible.default d rfl
    rfl

theorem Column.whole {c : Column} (legible : c.Legible) : Whole c.tokens := by
  have begun : Whole [.name c.name, .word c.type] := .atoms (by simp [Token.IsAtom])
  refine begun.append (.flatten fun ts mem => ?_)
  simp only [constraintTokens, List.mem_append, Option.mem_toList, Option.map_eq_some_iff] at mem
  rcases mem with ((mem | mem) | ⟨d, default, rfl⟩) | ⟨t, _, rfl⟩
  · split at mem
    · exact .atoms (by simp_all [Token.IsAtom])
    · cases mem
  · split at mem
    · exact .atoms (by simp_all [Token.IsAtom])
    · cases mem
  · obtain ⟨q, rfl, _⟩ := legible.default d default
    have words : Whole [.word "DEFAULT", .word "NEXTVAL"] := .atoms (by simp [Token.IsAtom])
    have value : Whole (.open :: [.literal q] ++ [.close]) := .enclosed (by simp [Token.IsAtom])
    exact words.append value
  · have words : Whole [.word "REFERENCES", .name t] := .atoms (by simp [Token.IsAtom])
    have key : Whole (.open :: [.name Schema.idColumn] ++ [.close]) := .enclosed (by simp [Token.IsAtom])
    exact words.append key

/-- A list of atoms with commas between them. -/
theorem listed_inner (token : String → Token) (atom : ∀ x, (token x).IsAtom) (xs : List String) :
    ∀ t ∈ [.comma].intercalate (xs.map fun x => [token x]), t.IsAtom ∨ t = .comma := by
  intro t mem
  rcases mem_intercalate mem with comma | ⟨ts, listed, own⟩
  · exact .inr (List.mem_singleton.1 comma)
  · obtain ⟨x, _, rfl⟩ := List.mem_map.1 listed
    obtain rfl := List.mem_singleton.1 own
    exact .inl (atom x)

namespace Table

variable {t : Table} (legible : t.Legible)

theorem key_whole (t : Table) : Whole t.keyTokens := by
  have words : Whole [.word "PRIMARY", .word "KEY"] := .atoms (by simp [Token.IsAtom])
  exact words.append (.enclosed (listed_inner .name (fun _ => trivial) t.primaryKey))

include legible

theorem Legible.parts_whole : ∀ ts ∈ t.parts, Whole ts := by
  intro ts mem
  rcases List.mem_append.1 mem with mem | mem
  · obtain ⟨c, listed, rfl⟩ := List.mem_map.1 mem
    exact Column.whole (legible.each c listed)
  · split at mem
    · cases mem
    · obtain rfl := List.mem_singleton.1 mem
      exact t.key_whole

theorem Legible.parts_ne_nil : t.parts ≠ [] := by
  simp [parts, legible.columns]

theorem Legible.parts_define : t.parts.foldlM addPart { name := t.name } = some t.definition := by
  -- The columns come one by one, and the key after them.
  have columns : ∀ (cs : List Column) (d : Definition), (∀ c ∈ cs, c.Legible) →
      (cs.map (·.tokens)).foldlM addPart d = some { d with columns := d.columns ++ cs } := by
    intro cs
    induction cs with
    | nil => exact fun d _ => by simp
    | cons c rest ih =>
      intro d each
      obtain ⟨first, others⟩ := List.forall_mem_cons.1 each
      have added : addPart d c.tokens = some { d with columns := d.columns ++ [c] } := by
        rw [Column.tokens, addPart, Column.constrained first, Option.map_some]
      rw [List.map_cons, List.foldlM_cons, added]
      simpa using ih { d with columns := d.columns ++ [c] } others
  rw [parts, List.foldlM_append, columns t.columns _ legible.each]
  cases key : t.primaryKey with
  | nil => simp [definition, key]
  | cons k ks =>
    have names := listed_eq .name (fun _ => rfl : ∀ x, name? (.name x) = some x) (List.cons_ne_nil k ks) []
    have added : addPart { name := t.name, columns := t.columns } t.keyTokens = some t.definition := by
      rw [keyTokens, key, definition, key]
      simp only [List.cons_append, addPart, names, if_true]
    simpa using added

/-- The tokens of a definition, read again. -/
theorem Legible.tokens_command : command? t.tokens = some (.createTable t.definition) := by
  obtain ⟨ps, read, all⟩ := parts_intercalate legible.parts_ne_nil legible.parts_whole
  simp only [tokens, List.cons_append, command?, read]
  simp [all, legible.parts_define]

theorem Legible.tokens_sentence : .semicolon ∉ t.tokens := by
  have body : .semicolon ∉ [.comma].intercalate t.parts := by
    intro mem
    rcases mem_intercalate mem with comma | ⟨ts, listed, own⟩
    · cases List.mem_singleton.1 comma
    · exact (legible.parts_whole ts listed).sentence own
  simpa [tokens] using body

/-- The text that creates a table, after another text. -/
theorem Legible.text_opens {before : String} {ts : List Token} (start : Opens before ts) :
    Opens (before ++ "CREATE TABLE " ++ Ident.quote t.name ++ " (\n"
      ++ ",\n".intercalate (t.lines.map ("    " ++ ·)) ++ (if t.lines.isEmpty then "" else "\n") ++ ")")
      (ts ++ t.tokens) := by
  have opens : Opens "CREATE TABLE " [.word "CREATE", .word "TABLE"] := rfl
  have begins : Opens " (\n" [.open] := rfl
  have comma : Opens ",\n" [.comma] := rfl
  have indent : Opens "    " [] := rfl
  have line : Opens "\n" [] := rfl
  have nonempty : t.lines ≠ [] := by simp [lines, legible.columns]
  have lines : List.Forall₂ Reads (t.lines.map ("    " ++ ·)) t.parts := by
    rw [List.forall₂_map_left_iff]
    exact legible.parts_read.imp fun _ _ read => indent.reads read
  have body := comma.between rfl (by simpa) lines
  have named := (start.append opens).reads (.quote t.name)
  have head := named.opens rfl begins
  have all := ((head.reads body).opens rfl line).append close_opens
  rw [if_neg (by simpa using nonempty)]
  simpa [tokens] using all

theorem Legible.sql_opens : Opens t.sql (sequenceTokens t.sequence? ++ t.tokens) := by
  unfold sql
  split
  · next q sequence =>
    have opens : Opens "CREATE SEQUENCE IF NOT EXISTS "
        [.word "CREATE", .word "SEQUENCE", .word "IF", .word "NOT", .word "EXISTS"] := rfl
    have stop : Opens ";\n" [.semicolon] := rfl
    have before := (opens.reads (.quote q)).opens rfl stop
    exact sequence ▸ legible.text_opens before
  · next sequence => exact sequence ▸ legible.text_opens .nil

end Table

/-! ### Statements and scripts -/

theorem HierarchyEntry.sql_opens (e : HierarchyEntry) : Opens e.sql e.tokens := by
  have opens : Opens "INSERT INTO " [.word "INSERT", .word "INTO"] := rfl
  have between : Opens ") VALUES (" [.close, .word "VALUES", .open] := rfl
  have names : Reads (quotedNames [Schema.parentColumn, Schema.childColumn, Schema.relationColumn]) _ :=
    .listed .quote (List.cons_ne_nil _ _)
  have values : Reads (", ".intercalate ([e.parent, e.child, e.relation].map Ident.quoteLiteral)) _ :=
    .listed .quoteLiteral (List.cons_ne_nil _ _)
  have table := (opens.reads (.quote Schema.registryTable)).opens rfl open_opens
  have columns := (table.reads names).opens rfl between
  have text := (columns.reads values).opens rfl close_opens
  unfold sql tokens
  exact text

namespace Statement

def commands : Statement → List Command
  | .create t => (t.sequence?.map .createSequence).toList ++ [.createTable t.definition]
  | .register e => [.insert (Registry.insertEntry e)]

def Legible : Statement → Prop
  | .create t => t.Legible
  | .register _ => True

def sequencePiece (q : String) : List Token :=
  [.word "CREATE", .word "SEQUENCE", .word "IF", .word "NOT", .word "EXISTS", .name q]

def pieces : Statement → List (List Token)
  | .create t => (t.sequence?.map sequencePiece).toList ++ [t.tokens]
  | .register e => [e.tokens]

variable {stmt : Statement}

theorem Legible.text_pieces (legible : stmt.Legible) : ∃ ts, Opens stmt.sql ts ∧ Sql.pieces ts = stmt.pieces := by
  cases stmt with
  | create t =>
    refine ⟨_, legible.sql_opens, ?_⟩
    have table : Sql.pieces t.tokens = [t.tokens] :=
      pieces_sentence (by simp [Table.tokens]) legible.tokens_sentence
    cases sequence : t.sequence? with
    | none => simpa [pieces, sequence, Table.sequenceTokens] using table
    | some q =>
      have before : Sql.pieces (sequencePiece q) = [sequencePiece q] := rfl
      rw [pieces, sequence, Option.map_some, Option.toList_some, ← before, ← table]
      exact pieces_semicolon (sequencePiece q) t.tokens
  | register e =>
    exact ⟨_, e.sql_opens, pieces_sentence (by simp [HierarchyEntry.tokens]) (by simp [HierarchyEntry.tokens])⟩

theorem Legible.sql_pieces (legible : stmt.Legible) : Sql.pieces? stmt.sql = some stmt.pieces := by
  obtain ⟨ts, opens, own⟩ := legible.text_pieces
  rw [pieces?, opens.tokens, Option.map_some, own]

theorem Legible.pieces_commands (legible : stmt.Legible) : stmt.pieces.mapM command? = some stmt.commands := by
  cases stmt with
  | create t =>
    have before (q : String) : command? (sequencePiece q) = some (.createSequence q) := rfl
    have table := legible.tokens_command
    cases sequence : t.sequence? <;> simp [pieces, commands, sequence, before, table]
  | register e => rfl

theorem Legible.sql_commands (legible : stmt.Legible) : commands? stmt.sql = some stmt.commands :=
  (commands_of_pieces legible.sql_pieces).trans legible.pieces_commands

end Statement

/-! ### Scripts -/

namespace Schema

variable {s : Schema} (legible : ∀ stmt ∈ s.statements, stmt.Legible)
include legible

/-- The text of a schema is in as many pieces as its statements, one after another. -/
theorem script_pieces : Sql.pieces? s.script = some (s.statements.flatMap (·.pieces)) := by
  have all : ∀ stmts : List Statement, (∀ stmt ∈ stmts, stmt.Legible) →
      ∃ ts, Opens (String.join (stmts.map (·.sql ++ ";\n\n"))) ts ∧ Sql.pieces ts = stmts.flatMap (·.pieces) := by
    intro stmts
    induction stmts with
    | nil => exact fun _ => ⟨[], .nil, rfl⟩
    | cons stmt rest ih =>
      intro each
      obtain ⟨first, others⟩ := List.forall_mem_cons.1 each
      obtain ⟨ts, opens, own⟩ := first.text_pieces
      obtain ⟨us, opens', later⟩ := ih others
      refine ⟨ts ++ .semicolon :: us, ?_, ?_⟩
      · rw [List.map_cons, String.join_cons, List.append_cons]
        exact (opens.append stop_opens).append opens'
      · rw [pieces_semicolon, own, later, List.flatMap_cons]
  obtain ⟨ts, opens, own⟩ := all s.statements legible
  rw [pieces?, script, opens.tokens, Option.map_some, own]

/-- The text of a schema means what its statements stand for. -/
theorem script_commands : commands? s.script = some (s.statements.flatMap (·.commands)) := by
  rw [commands_of_pieces (script_pieces legible)]
  generalize s.statements = stmts at legible
  induction stmts with
  | nil => rfl
  | cons stmt rest ih =>
    obtain ⟨first, others⟩ := List.forall_mem_cons.1 legible
    rw [List.flatMap_cons, List.mapM_append, first.pieces_commands, ih others]
    rfl

end Schema

end TreeStore
