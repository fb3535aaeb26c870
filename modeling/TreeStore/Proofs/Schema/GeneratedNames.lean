import TreeStore.Proofs.Schema.Tables

/-! The names in the statements of a schema. Those of sequences are not checked when a model is compiled: they are
short enough because every entity names a longer table too, that of a relation or that of a leaf's surroundings. -/

namespace TreeStore

/-- The sequences that a table is created with or takes numbers from. -/
def Table.sequences (t : Table) : List String :=
  t.sequence?.toList ++ t.columns.filterMap fun c => match c.default? with
    | some (.next sequence) => some sequence
    | _ => none

def Table.names (t : Table) : List String :=
  t.name :: t.columnNames ++ t.primaryKey ++ t.foreignKeys.map (·.2) ++ t.sequences

/-- All names in the statements of a schema are identifiers, and those of its tables, of its sequences, and of the
columns of one table differ in more than case. -/
structure Schema.WellNamed (s : Schema) : Prop where
  valid : ∀ t ∈ s.tables, ∀ name ∈ t.names, Ident.isValid name = true ∧ name.utf8ByteSize ≤ 63
  tables : (s.tables.map (Text.lower ·.name)).Nodup
  sequences : ((s.tables.filterMap (·.sequence?)).map Text.lower).Nodup
  columns : ∀ t ∈ s.tables, (t.columnNames.map Text.lower).Nodup

namespace Ident

theorem isValid_size {s : String} (valid : isValid s = true) : s.utf8ByteSize ≤ maxBytes := by
  obtain ⟨_, _, _, size, _⟩ := isValid_iff.1 valid
  exact size

/-- An identifier keeps being one behind letters and underscores, as long as it is short enough. -/
theorem isValid_append {before s : String} (valid : isValid s = true) (ok : isValid before = true)
    (size : (before ++ s).utf8ByteSize ≤ maxBytes) : isValid (before ++ s) = true := by
  obtain ⟨c, rest, chars, _, start, parts⟩ := isValid_iff.1 ok
  refine isValid_iff.2 ⟨c, rest ++ s.toList, by simp [chars], size, start, ?_⟩
  simpa [parts] using isValid_part valid

end Ident

namespace Model.Compiles

variable {m : Model} (compiles : m.Compiles)
include compiles

/-- The generated table with a longer name is the one place where the name of a sequence is known to be short. -/
theorem entity_size {e : Entity} (mem : e ∈ m.entities) : e.name.text.utf8ByteSize + 10 ≤ Ident.maxBytes := by
  cases relations : e.relations with
  | nil =>
    have named := (compiles.table_checked (relationships_mem mem ((compiles.wellNamed.isLeaf_iff mem).2 relations))).1
    have size := Ident.isValid_size named
    have tail : "_relationships".utf8ByteSize = 14 := by decide
    simp only [Schema.relationships, Schema.relationshipsTable, String.utf8ByteSize_append, tail] at size
    omega
  | cons r _ =>
    have named := (compiles.table_checked (junction_mem mem (r := r) (by simp [relations]))).1
    have size := Ident.isValid_size named
    have head : "relation_".utf8ByteSize = 9 := by decide
    have mark : "_".utf8ByteSize = 1 := by decide
    have whole : Schema.junctionTable e.name.text r.name.text =
        "relation_" ++ e.name.text ++ "_" ++ r.name.text := rfl
    simp only [Schema.junction, whole, String.utf8ByteSize_append, head, mark] at size
    omega

theorem sequence_valid {e : Entity} (mem : e ∈ m.entities) :
    Ident.isValid (Schema.sequenceOf e.name.text) = true := by
  have size := compiles.entity_size mem
  have head : "seq_".utf8ByteSize = 4 := by decide
  refine Ident.isValid_append (compiles.entity_valid mem) (by decide) ?_
  rw [String.utf8ByteSize_append, head]
  omega

theorem table_sequences {t : Table} (mem : t ∈ m.tables) {q : String} (hq : q ∈ t.sequences) :
    ∃ e ∈ m.entities, q = Schema.sequenceOf e.name.text := by
  rcases compiles.wellNamed.mem_tables mem with rfl | ⟨e, he, created, rfl⟩ | ⟨e, _, r, _, rfl⟩ | ⟨e, _, _, rfl⟩
  · simp [Table.sequences, Schema.registry] at hq
  · exact ⟨e, he, by simpa [Table.sequences, Schema.entityTable] using hq⟩
  · simp [Table.sequences, Schema.junction] at hq
  · simp [Table.sequences, Schema.relationships, Schema.context] at hq

theorem table_references {t : Table} (mem : t ∈ m.tables) {name : String}
    (hname : name ∈ t.foreignKeys.map (·.2)) : ∃ e ∈ m.entities, name = e.name.text := by
  have target {e : Entity} (he : e ∈ m.entities) {r : Relation} (hr : r ∈ e.relations) :
      ∃ f ∈ m.entities, r.target.text = f.name.text := by
    obtain ⟨f, hf, same⟩ := compiles.target_mem he hr
    exact ⟨f, hf, same ▸ rfl⟩
  rcases compiles.wellNamed.mem_tables mem with rfl | ⟨e, he, created, rfl⟩ | ⟨e, he, r, hr, rfl⟩ | ⟨e, he, _, rfl⟩
  · simp [Table.foreignKeys, Schema.registry] at hname
  · have named : ∃ r ∈ e.relations, (r.target ≠ e.name ∧ r.target ∈ created) ∧ r.target.text = name := by
      simpa [Table.foreignKeys, Schema.entityTable] using hname
    obtain ⟨r, hr, _, rfl⟩ := named
    exact target he hr
  · have named : name = e.name.text ∨ name = r.target.text := by
      simpa [Table.foreignKeys, Schema.junction] using hname
    rcases named with rfl | rfl
    · exact ⟨e, he, rfl⟩
    · exact target he hr
  · have named : (∃ f ∈ m.entities, f.name.text ∈ m.hierarchy.ancestorsOf e.name.text ∧ f.name.text = name) ∨
        name = e.name.text := by
      simpa [Table.foreignKeys, Schema.relationships, Schema.context, and_assoc] using hname
    rcases named with ⟨f, hf, _, rfl⟩ | rfl
    · exact ⟨f, hf, rfl⟩
    · exact ⟨e, he, rfl⟩

theorem key_columns {t : Table} (mem : t ∈ m.tables) : t.primaryKey ⊆ t.columnNames := by
  rcases compiles.wellNamed.mem_tables mem with rfl | ⟨e, _, created, rfl⟩ | ⟨e, _, r, _, rfl⟩ | ⟨e, _, _, rfl⟩
  · simp [Table.columnNames, Schema.registry]
  all_goals exact List.nil_subset _

theorem names_valid {t : Table} (mem : t ∈ m.tables) {name : String} (hname : name ∈ t.names) :
    Ident.isValid name = true := by
  have checked := compiles.table_checked mem
  have columns : ∀ c ∈ t.columnNames, Ident.isValid c = true := by simpa [Table.columnNames] using checked.2
  simp only [Table.names, List.cons_append, List.mem_cons, List.mem_append] at hname
  rcases hname with rfl | ((column | key) | reference) | sequence
  · exact checked.1
  · exact columns name column
  · exact columns name (compiles.key_columns mem key)
  · obtain ⟨e, he, rfl⟩ := compiles.table_references mem reference
    exact compiles.entity_valid he
  · obtain ⟨e, he, rfl⟩ := compiles.table_sequences mem sequence
    exact compiles.sequence_valid he

theorem sequences_distinct : ((m.tables.filterMap (·.sequence?)).map Text.lower).Nodup := by
  have apart := compiles.table_keys
  rw [List.Nodup, List.pairwise_map] at apart ⊢
  refine List.pairwise_filterMap.2 (apart.imp_of_mem fun ht hu other q first q' second same => other ?_)
  rw [compiles.sequence_unique ht hu first second (sameName_iff.2 same.symm)]

end Model.Compiles

/-- The schema of every model that compiles is well named. -/
theorem generated_names {m : Model} {s : Schema} (compiled : Schema.ofModel m = .ok s) : s.WellNamed := by
  obtain ⟨rfl, compiles⟩ := ofModel_ok.1 compiled
  have tables := m.schema_tables
  constructor
  · intro t ht name hname
    have valid := compiles.names_valid (tables ▸ ht) hname
    exact ⟨valid, Ident.isValid_size valid⟩
  · simpa only [tables] using compiles.table_keys
  · simpa only [tables] using compiles.sequences_distinct
  · intro t ht
    simpa [Table.columnNames, Function.comp_def] using compiles.columns_distinct (tables ▸ ht)

theorem generated_names_walks : Schema.ofModel Sample.walks = .ok Sample.walks.schema ∧
    Sample.walks.schema.WellNamed :=
  ⟨Sample.walks_compile, generated_names Sample.walks_compile⟩

end TreeStore
