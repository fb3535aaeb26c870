import TreeStore.Schema.Table
import TreeStore.Ident

/-! The SQL text of statements. Names are quoted wherever they stand. -/

namespace TreeStore

def ColumnDefault.sql : ColumnDefault → String
  | .next sequence => s!"nextval('{sequence}')"
  | .expression sql => sql

/-- The words after the name and type of a column. -/
def Column.constraints (c : Column) : List String :=
  (if c.primaryKey then ["PRIMARY KEY"] else [])
    ++ (if c.notNull then ["NOT NULL"] else [])
    ++ (c.default?.map fun d => "DEFAULT " ++ d.sql).toList
    ++ (c.references?.map fun t =>
      "REFERENCES " ++ Ident.quote t ++ " (" ++ Ident.quote Schema.idColumn ++ ")").toList

def Column.sql (c : Column) : String :=
  " ".intercalate (Ident.quote c.name :: c.type :: c.constraints)

def quotedNames (names : List String) : String := ", ".intercalate (names.map Ident.quote)

def Table.lines (t : Table) : List String :=
  t.columns.map (·.sql)
    ++ if t.primaryKey.isEmpty then [] else ["PRIMARY KEY (" ++ quotedNames t.primaryKey ++ ")"]

/-- The text that creates a table, after its sequence if it has one. -/
def Table.sql (t : Table) : String :=
  (match t.sequence? with
    | some s => "CREATE SEQUENCE IF NOT EXISTS " ++ Ident.quote s ++ ";\n"
    | none => "")
    ++ "CREATE TABLE " ++ Ident.quote t.name ++ " (\n"
    ++ ",\n".intercalate (t.lines.map ("    " ++ ·)) ++ (if t.lines.isEmpty then "" else "\n") ++ ")"

def HierarchyEntry.sql (e : HierarchyEntry) : String :=
  "INSERT INTO " ++ Ident.quote Schema.registryTable ++ " ("
    ++ quotedNames [Schema.parentColumn, Schema.childColumn, Schema.relationColumn] ++ ") VALUES ("
    ++ ", ".intercalate ([e.parent, e.child, e.relation].map Ident.quoteLiteral) ++ ")"

def Statement.sql : Statement → String
  | .create t => t.sql
  | .register e => e.sql

end TreeStore
