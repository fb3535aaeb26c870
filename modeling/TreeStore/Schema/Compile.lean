import TreeStore.Schema.Basic

/-! Compiling a model into a schema. What is wrong with a model is found before there is any statement:
names that cannot stand in SQL, names that differ in case only, relations to nothing, and generated names
that clash. -/

namespace TreeStore

/-- What has generated a column that an attribute clashes with. -/
inductive ColumnOrigin where
  | identifier
  | relation (name : String)
deriving DecidableEq, Repr

def ColumnOrigin.text : ColumnOrigin → String
  | .identifier => "the identifier column"
  | .relation name => s!"the foreign-key column of relation '{name}'"

inductive CompileError where
  | unknownTarget (entity relation target : String)
  | duplicateEntity (name existing : String)
  | duplicateAttribute (entity «attribute» : String)
  | duplicateRelation (entity relation : String)
  | badIdentifier (rejection : IdentRejection)
  | columnConflict (entity column : String) (origin : ColumnOrigin)
  | tableConflict (table : String) (first second : TableKind)
deriving DecidableEq, Repr

def CompileError.message : CompileError → String
  | .unknownTarget entity relation target =>
    s!"[S001] Relation '{entity}.{relation}' targets unknown entity '{target}'"
  | .duplicateEntity name existing =>
    s!"[S002] Duplicate entity '{name}' (conflicts with '{existing}')"
  | .duplicateAttribute entity name => s!"[S003] Duplicate attribute '{name}' on entity '{entity}'"
  | .duplicateRelation entity relation =>
    s!"[S004] Duplicate relation '{relation}' on entity '{entity}'"
  | .badIdentifier rejection => "[S005] " ++ rejection.message
  | .columnConflict entity column origin =>
    s!"[S006] Column '{column}' on entity '{entity}' collides with {origin.text}"
  | .tableConflict table first second =>
    s!"[S007] Table '{table}' for {first.word} table collides with {second.word} table"

/-- The message, and the message of what has caused the error. -/
def CompileError.report : CompileError → List String
  | .badIdentifier rejection => [(CompileError.badIdentifier rejection).message, rejection.message]
  | e => [e.message]

namespace Compile

def checkName (name : Name) (kind : NameKind) (owner : Option String) : Except CompileError Unit :=
  (name.check kind owner).mapError .badIdentifier

def checkIdent (name context : String) : Except CompileError Unit :=
  (Ident.check name context).mapError .badIdentifier

/-- What has generated the column of a key, on an entity with some relations. -/
def origin? (relations : List Relation) (key : String) : Option ColumnOrigin :=
  if key = Schema.idColumn then some .identifier
  else (relations.find? fun r => Text.lower r.column = key).map fun r => .relation r.name.text

/-- Refuses a column that some relations or the identifier have generated already. -/
def checkColumn (entity : Name) (relations : List Relation) (column : String) :
    Except CompileError Unit :=
  match origin? relations (Text.lower column) with
  | some origin => throw (.columnConflict entity.text column origin)
  | none => pure ()

def checkRelation (entity : Name) (before : List Relation) (r : Relation) :
    Except CompileError Unit := do
  checkName r.name .relation (some entity.text)
  if before.any (·.name.key = r.name.key) then
    throw (.duplicateRelation entity.text r.name.text)
  checkIdent r.column s!"relation of {entity.text}"
  checkColumn entity before r.column

def checkAttribute (e : Entity) (before : List Attribute) (a : Attribute) :
    Except CompileError Unit := do
  checkName a.name .attribute (some e.name.text)
  if before.any (·.name.key = a.name.key) then
    throw (.duplicateAttribute e.name.text a.name.text)
  checkColumn e.name e.relations a.name.text

def checkEach (check : List α → α → Except CompileError Unit) (before : List α) :
    List α → Except CompileError Unit
  | [] => .ok ()
  | x :: rest => do
    check before x
    checkEach check (before ++ [x]) rest

def checkEntity (before : List Entity) (e : Entity) : Except CompileError Unit := do
  checkName e.name .entity none
  match before.find? (·.name.key = e.name.key) with
  | some existing => throw (.duplicateEntity e.name.text existing.name.text)
  | none => pure ()
  checkEach (checkRelation e.name) [] e.relations
  checkEach (checkAttribute e) [] e.attributes

def checkTargets (m : Model) : Except CompileError Unit :=
  m.entities.forM fun e => e.relations.forM fun r =>
    match m.entity? r.target.text with
    | some _ => .ok ()
    | none => .error (.unknownTarget e.name.text r.name.text r.target.text)

def checkTable (before : List Table) (t : Table) : Except CompileError Unit := do
  checkIdent t.name s!"{t.kind.word} table"
  t.columns.forM fun c => checkIdent c.name s!"column of {t.name}"
  match before.find? fun u => Text.lower u.name = Text.lower t.name with
  | some first => throw (.tableConflict t.name first.kind t.kind)
  | none => pure ()

end Compile

def Schema.ofModel (m : Model) : Except CompileError Schema := do
  Compile.checkEach Compile.checkEntity [] m.entities
  Compile.checkTargets m
  Compile.checkEach Compile.checkTable [] m.tables
  return m.schema

end TreeStore
