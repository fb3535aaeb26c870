import TreeStore.Proofs.Names
import TreeStore.Schema.Diagram

/-! Diagrams read back. The text is cut into lines, a line into fields at its quotation marks, and the label of a node into
a title and columns. Names of letters, digits and underscores come out of this as they went in. -/

namespace TreeStore

open Schema

/-- What stands before, between and after the ends of lines. -/
def Text.lines (s : String) : List String := (s.toList.splitOn '\n').map String.ofList

namespace Diagram

/-- A node as a diagram shows it: the names and types of its columns, and what is said of its style. -/
structure Node where
  name : String
  columns : List (String × String)
  style : String
deriving DecidableEq, Repr

/-- Reads the lines of a label up to its closing brace. Every line ends in `\l`. -/
def rows? (row : List Char) : List Char → Option (List (List Char))
  | ['\x7d'] => if row.isEmpty then some [] else none
  | '\\' :: 'l' :: rest => (rows? [] rest).map (row.reverse :: ·)
  | c :: rest => rows? (c :: row) rest
  | [] => none

def column? (row : List Char) : Option (String × String) :=
  match row.splitOn ' ' with
  | [name, type] => some (.ofList name, .ofList type)
  | _ => none

def record? (label : List Char) : Option (List Char × List (String × String)) :=
  match label.splitOn '|' with
  | ['\x7b' :: title, body] => do
    let columns ← (← rows? [] body).mapM column?
    return (title, columns)
  | _ => none

def style? (tail : List Char) : Option String :=
  ["", ", style=dashed", ", style=rounded"].find? fun style => (style ++ "];").toList = tail

/-- Reads the line of a node, whose label has the node's own name for title. -/
def node? (line : String) : Option Node :=
  match line.toList.splitOn '"' with
  | [indent, name, mark, label, tail] => do
    let (title, columns) ← record? label
    let style ← style? tail
    if indent = "  ".toList ∧ title = name ∧ mark = " [label=".toList then some ⟨.ofList name, columns, style⟩ else none
  | _ => none

def edge? (line : String) : Option Edge :=
  match line.toList.splitOn '"' with
  | [indent, source, arrow, target, mark, column, tail] =>
    if indent = "  ".toList ∧ arrow = " -> ".toList ∧ mark = " [label=".toList ∧ tail = "];".toList then
      some ⟨.ofList source, .ofList target, .ofList column⟩
    else none
  | _ => none

end Diagram

def Table.outline (t : Table) : Diagram.Node where
  name := t.name
  columns := t.columns.map fun c => (c.name, c.type)
  style := nodeStyle t.kind

/-! ### Texts without marks -/

def Ident.Plain (s : String) : Prop := ∀ c ∈ s.toList, isPart c = true

theorem Ident.Plain.not_mem {s : String} (plain : Ident.Plain s) {mark : Char} (other : isPart mark = false) :
    mark ∉ s.toList := fun mem => Bool.false_ne_true (other.symm.trans (plain mark mem))

structure Column.Plain (c : Column) : Prop where
  name : Ident.Plain c.name
  type : Ident.Plain c.type

structure Table.Plain (t : Table) : Prop where
  name : Ident.Plain t.name
  columns : t.columns ≠ []
  each : ∀ c ∈ t.columns, c.Plain

structure Schema.Edge.Plain (e : Edge) : Prop where
  source : Ident.Plain e.source
  target : Ident.Plain e.target
  column : Ident.Plain e.column

namespace Diagram

/-! ### Columns -/

theorem columnRow_not_mem {c : Column} (plain : c.Plain) {mark : Char} (other : Ident.isPart mark = false)
    (space : mark ≠ ' ') : mark ∉ (columnRow c).toList := by
  simp [columnRow, plain.name.not_mem other, plain.type.not_mem other, space]

theorem column?_columnRow {c : Column} (plain : c.Plain) :
    column? (columnRow c).toList = some (c.name, c.type) := by
  have space : Ident.isPart ' ' = false := by decide
  have text : (columnRow c).toList = c.name.toList ++ ' ' :: c.type.toList := by simp [columnRow]
  rw [column?, text, List.splitOn_append_cons_self_of_not_mem (plain.name.not_mem space),
    List.splitOn_eq_singleton (plain.type.not_mem space)]
  simp

theorem mapM_column? {cs : List Column} (plain : ∀ c ∈ cs, c.Plain) :
    (cs.map fun c => (columnRow c).toList).mapM column? = some (cs.map fun c => (c.name, c.type)) := by
  induction cs with
  | nil => rfl
  | cons c rest ih =>
    obtain ⟨first, others⟩ := List.forall_mem_cons.1 plain
    simp [column?_columnRow first, ih others]

/-! ### Labels -/

theorem rows?_row {row : List Char} (mark : '\\' ∉ row) (brace : '\x7d' ∉ row) (before rest : List Char) :
    rows? before (row ++ '\\' :: 'l' :: rest) = (rows? [] rest).map ((before.reverse ++ row) :: ·) := by
  induction row generalizing before with
  | nil => simp [rows?]
  | cons c row ih =>
    simp only [List.mem_cons, not_or] at mark brace
    rw [List.cons_append, rows?, ih mark.2 brace.2, List.reverse_cons, List.append_assoc, List.singleton_append]
    · exact fun same _ => brace.1 same.symm
    · exact fun _ same _ => mark.1 same.symm

theorem rows?_flatMap {rows : List (List Char)} (plain : ∀ row ∈ rows, '\\' ∉ row ∧ '\x7d' ∉ row) :
    rows? [] (rows.flatMap (· ++ ['\\', 'l']) ++ ['\x7d']) = some rows := by
  induction rows with
  | nil => rfl
  | cons row rest ih =>
    obtain ⟨⟨mark, brace⟩, others⟩ := List.forall_mem_cons.1 plain
    have first := rows?_row mark brace [] (rest.flatMap (· ++ ['\\', 'l']) ++ ['\x7d'])
    simpa [ih others] using first

theorem intercalate_end (mark : String) {rows : List String} (nonempty : rows ≠ []) :
    mark.intercalate rows ++ mark = String.join (rows.map (· ++ mark)) := by
  induction rows with
  | nil => exact absurd rfl nonempty
  | cons row rest ih =>
    cases rest with
    | nil => simp
    | cons next rest =>
      rw [String.intercalate_cons_cons]
      simpa [String.append_assoc] using ih (List.cons_ne_nil next rest)

def labelRows (t : Table) : List Char :=
  (t.columns.map fun c => (columnRow c).toList).flatMap (· ++ ['\\', 'l']) ++ ['\x7d']

theorem nodeLabel_toList {t : Table} (nonempty : t.columns ≠ []) :
    (nodeLabel t).toList = '\x7b' :: t.name.toList ++ '|' :: labelRows t := by
  have rows : t.columns.map columnRow ≠ [] := by simpa using nonempty
  have label : nodeLabel t = "\x7b" ++ t.name ++ "|" ++
      ("\\l".intercalate (t.columns.map columnRow) ++ "\\l") ++ "\x7d" := by
    rw [← String.toList_inj]
    simp [nodeLabel]
  rw [label, intercalate_end "\\l" rows]
  simp [labelRows, List.flatMap_map]

theorem labelRows_not_mem {t : Table} (plain : t.Plain) {mark : Char} (other : Ident.isPart mark = false)
    (apart : mark ∉ [' ', '\\', '\x7d']) : mark ∉ labelRows t := by
  have letter : mark ≠ 'l' := by
    rintro rfl
    cases other
  simp only [List.mem_cons, List.not_mem_nil, or_false, not_or] at apart
  obtain ⟨space, back, brace⟩ := apart
  have rows : ∀ c ∈ t.columns, mark ∉ (columnRow c).toList := fun c hc =>
    columnRow_not_mem (plain.each c hc) other space
  simpa [labelRows, back, letter, brace] using rows

theorem record?_nodeLabel {t : Table} (plain : t.Plain) :
    record? (nodeLabel t).toList = some (t.name.toList, t.columns.map fun c => (c.name, c.type)) := by
  have bar : Ident.isPart '|' = false := by decide
  have title : '|' ∉ '\x7b' :: t.name.toList := by simp [plain.name.not_mem bar]
  have read : rows? [] (labelRows t) = some (t.columns.map fun c => (columnRow c).toList) := by
    refine rows?_flatMap fun row mem => ?_
    obtain ⟨c, hc, rfl⟩ := List.mem_map.1 mem
    have whole := plain.each c hc
    exact ⟨columnRow_not_mem whole (by decide) (by decide), columnRow_not_mem whole (by decide) (by decide)⟩
  rw [nodeLabel_toList plain.columns, record?, List.splitOn_append_cons_self_of_not_mem title,
    List.splitOn_eq_singleton (labelRows_not_mem plain bar (by decide))]
  simp only [read, mapM_column? plain.each, Option.bind_eq_bind, Option.bind_some]
  rfl

/-! ### Lines -/

theorem splitOn_quoted {fields : List String} (nonempty : fields ≠ []) (plain : ∀ f ∈ fields, '"' ∉ f.toList) :
    ("\"".intercalate fields).toList.splitOn '"' = fields.map String.toList := by
  rw [String.toList_intercalate]
  exact List.splitOn_intercalate '"' (by simpa using plain) (by simpa using nonempty)

theorem not_mem_quoted {fields : List String} (plain : ∀ f ∈ fields, '\n' ∉ f.toList) :
    '\n' ∉ ("\"".intercalate fields).toList := by
  induction fields with
  | nil => simp
  | cons f rest ih =>
    obtain ⟨first, others⟩ := List.forall_mem_cons.1 plain
    cases rest with
    | nil => simpa using first
    | cons g rest =>
      rw [String.intercalate_cons_cons]
      simpa [first] using ih others

def nodeFields (t : Table) : List String := ["  ", t.name, " [label=", nodeLabel t, nodeStyle t.kind ++ "];"]

def edgeFields (e : Edge) : List String := ["  ", e.source, " -> ", e.target, " [label=", e.column, "];"]

theorem nodeLine_eq (t : Table) : nodeLine t = "\"".intercalate (nodeFields t) := by
  rw [← String.toList_inj]
  simp [nodeLine, nodeFields]

theorem edgeLine_eq (e : Edge) : edgeLine e = "\"".intercalate (edgeFields e) := by
  rw [← String.toList_inj]
  simp [edgeLine, edgeFields]

/-- The fields of a node's line have no mark that would cut them or the line. -/
theorem nodeFields_not_mem {t : Table} (plain : t.Plain) {mark : Char} (cut : mark = '"' ∨ mark = '\n') :
    ∀ f ∈ nodeFields t, mark ∉ f.toList := by
  have other : Ident.isPart mark = false := by rcases cut with rfl | rfl <;> decide
  have label : mark ∉ (nodeLabel t).toList := by
    have rows : mark ∉ labelRows t := labelRows_not_mem plain other (by rcases cut with rfl | rfl <;> decide)
    have marks : mark ≠ '\x7b' ∧ mark ≠ '|' := by rcases cut with rfl | rfl <;> decide
    simp [nodeLabel_toList plain.columns, plain.name.not_mem other, rows, marks]
  have fixed : ∀ f ∈ ["  ", " [label=", nodeStyle t.kind ++ "];"], mark ∉ f.toList := by
    cases t.kind <;> rcases cut with rfl | rfl <;> decide
  simp only [List.forall_mem_cons] at fixed
  obtain ⟨indent, before, style, none⟩ := fixed
  simp only [nodeFields, List.forall_mem_cons]
  exact ⟨indent, plain.name.not_mem other, before, label, style, none⟩

theorem edgeFields_not_mem {e : Edge} (plain : e.Plain) {mark : Char} (cut : mark = '"' ∨ mark = '\n') :
    ∀ f ∈ edgeFields e, mark ∉ f.toList := by
  have other : Ident.isPart mark = false := by rcases cut with rfl | rfl <;> decide
  have fixed : ∀ f ∈ ["  ", " -> ", " [label=", "];"], mark ∉ f.toList := by rcases cut with rfl | rfl <;> decide
  simp only [List.forall_mem_cons] at fixed
  obtain ⟨indent, arrow, before, after, none⟩ := fixed
  simp only [edgeFields, List.forall_mem_cons]
  exact ⟨indent, plain.source.not_mem other, arrow, plain.target.not_mem other, before, plain.column.not_mem other,
    after, none⟩

theorem style?_nodeStyle (kind : TableKind) : style? (nodeStyle kind ++ "];").toList = some (nodeStyle kind) := by
  cases kind <;> decide

theorem node?_nodeLine {t : Table} (plain : t.Plain) : node? (nodeLine t) = some t.outline := by
  have nonempty : nodeFields t ≠ [] := List.cons_ne_nil _ _
  rw [node?, nodeLine_eq, splitOn_quoted nonempty (nodeFields_not_mem plain (.inl rfl))]
  simp only [nodeFields, List.map_cons, List.map_nil, record?_nodeLabel plain, style?_nodeStyle, Option.bind_eq_bind,
    Option.bind_some]
  simp [Table.outline]

example : node? "  \"A\" [label=\"\x7bA|id BIGINT\\ln VARCHAR\\l\x7d\", style=dashed];" =
    some ⟨"A", [("id", "BIGINT"), ("n", "VARCHAR")], ", style=dashed"⟩ := by decide

theorem edge?_edgeLine {e : Edge} (plain : e.Plain) : edge? (edgeLine e) = some e := by
  have nonempty : edgeFields e ≠ [] := List.cons_ne_nil _ _
  rw [edge?, edgeLine_eq, splitOn_quoted nonempty (edgeFields_not_mem plain (.inl rfl))]
  simp [edgeFields]

/-! ### Lines that are read -/

theorem eq_of_splitOn {line : String} {fields : List (List Char)} (cut : line.toList.splitOn '"' = fields) :
    line = "\"".intercalate (fields.map String.ofList) := by
  have whole : ['"'].intercalate (line.toList.splitOn '"') = line.toList := List.intercalate_splitOn '"'
  rw [← String.toList_inj, String.toList_intercalate, ← whole, cut]
  simp

theorem column?_eq_some {row : List Char} {c : Column} (read : column? row = some (c.name, c.type)) :
    row = (columnRow c).toList := by
  have whole : [' '].intercalate (row.splitOn ' ') = row := List.intercalate_splitOn ' '
  unfold column? at read
  split at read
  · next name type cut =>
    simp only [Option.some.injEq, Prod.mk.injEq] at read
    rw [← whole, cut]
    simp [columnRow, ← read.1, ← read.2]
  · cases read

theorem mapM_column?_eq_some {cs : List Column} {rows : List (List Char)}
    (read : rows.mapM column? = some (cs.map fun c => (c.name, c.type))) :
    rows = cs.map fun c => (columnRow c).toList := by
  induction rows generalizing cs with
  | nil =>
    have none : [] = cs.map fun c => (c.name, c.type) := by simpa using read
    rw [List.map_eq_nil_iff.1 none.symm, List.map_nil]
  | cons row rest ih =>
    rw [List.mapM_cons] at read
    simp only [Option.bind_eq_bind, Option.bind_eq_some_iff, Option.pure_def, Option.some.injEq] at read
    obtain ⟨column, first, columns, others, eq⟩ := read
    cases cs with
    | nil => cases eq
    | cons c cs =>
      obtain ⟨rfl, rfl⟩ := List.cons.inj eq
      rw [List.map_cons, column?_eq_some first, ih others]

theorem rows?_eq_some {before text : List Char} {rows : List (List Char)} (read : rows? before text = some rows) :
    before.reverse ++ text = rows.flatMap (· ++ ['\\', 'l']) ++ ['\x7d'] := by
  fun_induction rows? before text generalizing rows with
  | case1 before ended =>
    obtain rfl := List.isEmpty_iff.1 ended
    cases read
    rfl
  | case2 => cases read
  | case3 before rest ih =>
    obtain ⟨later, others, rfl⟩ := Option.map_eq_some_iff.1 read
    have text := ih others
    simp only [List.reverse_nil, List.nil_append] at text
    simp [text]
  | case4 before c rest _ _ ih => simpa using ih read
  | case5 => cases read

theorem record?_eq_some {label : List Char} {t : Table}
    (read : record? label = some (t.name.toList, t.columns.map fun c => (c.name, c.type))) :
    label = '\x7b' :: t.name.toList ++ '|' :: labelRows t := by
  have whole : ['|'].intercalate (label.splitOn '|') = label := List.intercalate_splitOn '|'
  unfold record? at read
  split at read
  · next title body cut =>
    simp only [Option.bind_eq_bind, Option.bind_eq_some_iff, Option.pure_def, Option.some.injEq, Prod.mk.injEq] at read
    obtain ⟨rows, lines, columns, each, rfl, rfl⟩ := read
    have text := rows?_eq_some lines
    rw [mapM_column?_eq_some each] at text
    rw [← whole, cut, labelRows, ← text]
    simp
  · cases read

/-- A line that is read as the node of a table is the line of that table: nothing in it is passed over. -/
theorem node?_iff {t : Table} (plain : t.Plain) {line : String} :
    node? line = some t.outline ↔ line = nodeLine t := by
  refine ⟨fun read => ?_, fun eq => eq ▸ node?_nodeLine plain⟩
  unfold node? at read
  split at read
  · next indent name mark label tail cut =>
    simp only [Option.bind_eq_bind, Option.bind_eq_some_iff, Option.ite_none_right_eq_some, Option.some.injEq,
      Prod.exists] at read
    obtain ⟨title, columns, record, style, ended, ⟨rfl, rfl, rfl⟩, node⟩ := read
    obtain ⟨names, rfl, rfl⟩ := Node.mk.inj node
    have title : title = t.name.toList := by rw [← names, String.toList_ofList]
    subst title
    have found := List.find?_some ended
    have tail : (nodeStyle t.kind ++ "];").toList = tail := of_decide_eq_true found
    rw [eq_of_splitOn cut, nodeLine_eq, nodeFields, ← tail, record?_eq_some record, ← nodeLabel_toList plain.columns]
    simp
  · cases read

theorem edge?_iff {e : Edge} (plain : e.Plain) {line : String} : edge? line = some e ↔ line = edgeLine e := by
  refine ⟨fun read => ?_, fun eq => eq ▸ edge?_edgeLine plain⟩
  unfold edge? at read
  split at read
  · next indent source arrow target mark column tail cut =>
    obtain ⟨⟨rfl, rfl, rfl, rfl⟩, same⟩ := Option.ite_none_right_eq_some.1 read
    obtain rfl := Option.some.inj same
    rw [eq_of_splitOn cut, edgeLine_eq, edgeFields]
    simp
  · cases read

theorem nodeLine_not_mem {t : Table} (plain : t.Plain) : '\n' ∉ (nodeLine t).toList :=
  nodeLine_eq t ▸ not_mem_quoted (nodeFields_not_mem plain (.inr rfl))

theorem edgeLine_not_mem {e : Edge} (plain : e.Plain) : '\n' ∉ (edgeLine e).toList :=
  edgeLine_eq e ▸ not_mem_quoted (edgeFields_not_mem plain (.inr rfl))

end Diagram

theorem Text.lines_join {ls : List String} (plain : ∀ l ∈ ls, '\n' ∉ l.toList) :
    lines (String.join (ls.map (· ++ "\n"))) = ls ++ [""] := by
  unfold lines
  induction ls with
  | nil => rfl
  | cons l rest ih =>
    obtain ⟨first, others⟩ := List.forall_mem_cons.1 plain
    have text : (String.join ((l :: rest).map (· ++ "\n"))).toList =
        l.toList ++ '\n' :: (String.join (rest.map (· ++ "\n"))).toList := by simp
    rw [text, List.splitOn_append_cons_self_of_not_mem first, List.map_cons, ih others]
    simp

theorem Schema.lines_dot {s : Schema} (tables : ∀ t ∈ s.tables, t.Plain) (edges : ∀ e ∈ s.edges, e.Plain) :
    Text.lines s.dot = s.dotLines ++ [""] := by
  refine Text.lines_join fun l mem => ?_
  simp only [dotLines, List.mem_append, List.mem_map, or_assoc] at mem
  rcases mem with first | ⟨t, ht, rfl⟩ | blank | ⟨e, he, rfl⟩ | last
  · have all : ∀ l ∈ preamble, '\n' ∉ l.toList := by decide
    exact all l first
  · exact Diagram.nodeLine_not_mem (tables t ht)
  · obtain rfl := List.mem_singleton.1 blank
    decide
  · exact Diagram.edgeLine_not_mem (edges e he)
  · obtain rfl := List.mem_singleton.1 last
    decide

end TreeStore
