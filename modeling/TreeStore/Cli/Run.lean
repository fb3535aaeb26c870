import TreeStore.Cli.Command
import TreeStore.Cli.Session
import TreeStore.Infer
import TreeStore.Load.Loader
import TreeStore.Schema.Compile
import TreeStore.Schema.Diagram
import TreeStore.Text.Aligned

/-! Carrying out commands. -/

namespace TreeStore.Cli

variable {m : Type → Type} [Monad m] (w : Workspace m)

/-! ### What commands share -/

/-- The file of the settings if none is named. -/
def configFile : String := "metamorph.yml"

def settings (i : Invocation) : Action m Config := do
  let c ← match i.config with
    | some path => requireInput s!"Failed to load config {path}" (w.read.config path)
    | none => requireInput "Failed to load config" (w.read.configOrDefault configFile)
  let c := match i.database with
    | some path => { c with database := { c.database with path } }
    | none => c
  match c.fault? with
  | some fault => throw (.error ["Invalid configuration", (InputError.unusableConfig fault).message])
  | none =>
    remark i.verbose s!"Database: {c.database.path} (max {c.database.maxConnections} connections)"
    return c

def model (path : String) : Action m Model :=
  requireInput s!"Failed to load meta-model {path}" (w.read.model path)

def compiled (model : Model) : Action m Schema :=
  require "Failed to compile meta-model" CompileError.report (Schema.ofModel model)

def write (path content : String) : Action m Unit :=
  requireFile s!"Failed to write {path}" (w.write path content)

/-! ### Reports -/

def printApplied (verbose : Bool) (r : ApplyReport) : Action m Unit := do
  r.executed.forM fun label => remark verbose s!"ok: {label}"
  r.alreadyExisted.forM fun (label, _) => line s!"  skipped  {label} (already exists)"
  r.failed.forM fun (label, fault) => line s!"  FAILED   {label}: {fault.message}"
  line (s!"Applied schema: {r.executed.length} created, {r.alreadyExisted.length} already existed, "
    ++ s!"{r.failed.length} failed; registry {r.registered} added, {r.registrySkipped} already present")

def printLoaded (path : String) (r : LoadReport) : Action m Unit :=
  line (s!"Loaded {path}: {r.rowsInserted} rows inserted, {r.rowsReused} reused, "
    ++ s!"{r.containers} containers; "
    ++ s!"{r.relationshipsInserted} relationship rows ({r.relationshipsSkipped} existing), "
    ++ s!"{r.junctionsInserted} junction rows ({r.junctionsSkipped} existing)")

def printTable (headers : List String) (rows : List (List String)) : Action m Unit :=
  (Text.alignedTable headers rows).forM line

/-! ### Parts of commands -/

def applySchema (verbose : Bool) (s : Schema) : Action m ApplyReport := do
  let report ← onDatabase (store.apply s.statements)
  printApplied verbose report
  return report

/-- Loads trees one after another, up to the first that fails. -/
def loadTrees (verbose : Bool) (l : LoadSettings) : ColumnCache → List String → Action m Unit
  | _, [] => return
  | columns, path :: rest => do
    let tree ← requireInput s!"Failed to read instance document {path}" (w.read.tree path)
    remark verbose s!"{path}: {tree.nodeCount} nodes, depth {tree.depth}"
    let (result, columns) ← onDatabase fun db =>
      let (result, columns, db) := Loader.run (Loader.load store l tree) columns db
      ((result, columns), db)
    printLoaded path (← require s!"Failed to load {path}" LoadError.report result)
    loadTrees verbose l columns rest

/-- The largest number of rows that a query can be limited to. -/
def largestLimit : Nat := 0x7FFFFFFFFFFFFFFF

def ask (context : String) (r : Request) : Action m r.Answer := do
  require context (fun e => [e.message]) (← onDatabase (store.answer r))

def displayTable (limit : Nat) (table : String) : Action m Unit := do
  let columns ← ask s!"Failed to read columns of {table}" (.columnsOf table)
  if columns.isEmpty then line s!"{table}: no such table\n"
  else
    let headers := columns.map (·.name)
    let context := s!"Failed to read {table}"
    if largestLimit < limit then throw (.error [context, StoreFault.execution.label])
    let rows ← ask context (.select { selection := .columns headers, table })
    line s!"{table} ({rows.length} rows)"
    printTable headers ((rows.take limit).map fun row => row.map (·.getD "NULL"))
    line ""

def displayTables (limit : Nat) (tables : List String) : Action m Unit := do
  let all := (← get).database.tableNames
  (if tables.isEmpty then all else tables).forM (displayTable limit)

/-- The file for a part of what is inferred from a document. -/
def inferredFile (input : String) (given : Option String) (part : String) : String :=
  let stem := (Path.stem? input).getD "inferred"
  given.getD (Path.sibling input s!"{stem}.{part}.yml")

/-! ### Commands -/

def compileCommand (i : Invocation) (path : String) (listing : Listing) (file : Option String) :
    Action m Unit := do
  let m ← model w path
  let s ← compiled m
  let size := s.statements.length
  remark i.verbose s!"{m.entities.length} entities, {m.relationCount} relations -> {size} statements"
  match listing, file with
  | .script, some file =>
    write w file s.script
    line s!"Wrote {size} statements to {file}"
  | .script, none => text s.script
  | .summary, _ =>
    printTable ["#", "STATEMENT"] (s.statements.mapIdx fun n stmt => [toString (n + 1), stmt.label])

def diagramCommand (i : Invocation) (path : String) (file : Option String) : Action m Unit := do
  let s ← compiled (← model w path)
  match file with
  | some file =>
    write w file s.dot
    remark i.verbose s!"Wrote {s.tables.length} tables to {file}"
  | none => text s.dot

def inferCommand (i : Invocation) (input root : String) (modelFile treeFile : Option String) :
    Action m Unit := do
  let content ← requireFile s!"Failed to read {input}" (w.read input)
  let (m, t) ← require s!"Failed to infer from {input}" InputError.report (Infer.ofText root content)
  let modelFile := inferredFile input modelFile "model"
  let treeFile := inferredFile input treeFile "instance"
  write w modelFile m.yaml
  write w treeFile t.yaml
  remark i.verbose
    s!"{m.entities.length} entities, {m.relationCount} relations, {t.nodeCount} instance nodes"
  line s!"Wrote meta-model to {modelFile}"
  line s!"Wrote instance tree to {treeFile}"

def applyCommand (i : Invocation) (path : String) : Action m Unit := do
  let c ← settings w i
  let s ← compiled (← model w path)
  withDatabase w c.database.path do
    let report ← applySchema i.verbose s
    if !report.isClean then throw .printed

def loadCommand (i : Invocation) (path : String) (junctions : Bool) : Action m Unit := do
  let c ← settings w i
  let l := { c.load with recordJunctions := c.load.recordJunctions && junctions }
  withDatabase w c.database.path (loadTrees w i.verbose l .empty [path])

/-- Statements that fail do not keep trees from being loaded. -/
def runCommand (i : Invocation) (path : String) (trees : List String) (shown : Bool) :
    Action m Unit := do
  let c ← settings w i
  let s ← compiled (← model w path)
  withDatabase w c.database.path do
    let report ← applySchema i.verbose s
    loadTrees w i.verbose c.load .empty trees
    if shown then
      line ""
      displayTables c.rowLimit []
    if !report.isClean then
      message s!"{report.failed.length} schema statement(s) failed; see the apply report above"
      throw .printed

def displayCommand (i : Invocation) (tables : List String) (limit : Option Nat) : Action m Unit := do
  let c ← settings w i
  withDatabase w c.database.path (displayTables (limit.getD c.rowLimit) tables)

def carryOut (i : Invocation) : Action m Unit :=
  match i.command with
  | .compile path listing file => compileCommand w i path listing file
  | .apply path => applyCommand w i path
  | .load path junctions => loadCommand w i path junctions
  | .run path trees shown => runCommand w i path trees shown
  | .infer input root modelFile treeFile => inferCommand w i input root modelFile treeFile
  | .diagram path file => diagramCommand w i path file
  | .display tables limit => displayCommand w i tables limit

/-! ### Outcomes -/

/-- What a command line amounts to. -/
structure Outcome where
  code : Nat
  output : String
  messages : String
deriving DecidableEq, Repr

def versionText : String := "mm 0.1.0"

def usageText : String :=
  "Usage: mm [-v] [-c CONFIG] [-d DATABASE] COMMAND\n\nCommands:\n"
    ++ "  compile MODEL [-o sql|summary] [-f FILE]\n"
    ++ "  apply MODEL\n"
    ++ "  load INSTANCE [--no-junctions]\n"
    ++ "  run MODEL INSTANCE... [--no-show]\n"
    ++ "  infer INPUT [-r ROOT] [--model-out FILE] [--instance-out FILE]\n"
    ++ "  diagram MODEL [-f FILE]\n"
    ++ "  show [TABLE...] [-l LIMIT]\n"

def Refusal.outcome : Refusal → Outcome
  | .help => ⟨0, usageText, ""⟩
  | .version => ⟨0, versionText ++ "\n", ""⟩
  | .misuse => ⟨2, "", usageText⟩

def outcomeOf : Except Failure Unit × Session → Outcome
  | (.ok (), s) => ⟨0, s.output, s.messages⟩
  | (.error .printed, s) => ⟨1, s.output, s.messages⟩
  | (.error (.error report), s) =>
    ⟨1, s.output, s.messages ++ "Error: " ++ ": ".intercalate report ++ "\n"⟩

def run (words : List String) : m Outcome :=
  match Invocation.ofWords words with
  | .error refusal => pure refusal.outcome
  | .ok i => outcomeOf <$> ((carryOut w i).run).run {}

end TreeStore.Cli
