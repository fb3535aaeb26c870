import TreeStore.Files.Workspace
import TreeStore.Store.Snapshot
import TreeStore.Store.Apply

/-! What a command does, step by step: it prints lines, uses files and works on a database. What was printed
and what was written before a failure stays. -/

namespace TreeStore.Cli

/-- What has been printed, and the database that is open. -/
structure Session where
  output : String := ""
  messages : String := ""
  database : Database ColumnValue := {}

/-- Why a command ends early or without success. -/
inductive Failure where
  /-- An error: what was under way, and then its messages. -/
  | error (report : List String)
  /-- Something that has been printed. -/
  | printed
deriving DecidableEq, Repr

abbrev Action (m : Type → Type) := ExceptT Failure (StateT Session m)

variable {m : Type → Type} [Monad m]

def line (s : String) : Action m Unit := modify fun t => { t with output := t.output ++ s ++ "\n" }

/-- Prints a text that has lines of its own. -/
def text (s : String) : Action m Unit := modify fun t => { t with output := t.output ++ s }

def message (s : String) : Action m Unit :=
  modify fun t => { t with messages := t.messages ++ s ++ "\n" }

/-- Prints a line on the course of things, if these are asked for. -/
def remark (verbose : Bool) (s : String) : Action m Unit :=
  if verbose then message ("[verbose] " ++ s) else pure ()

/-- Fails if something has failed, and says what was under way. -/
def require (context : String) (report : ε → List String) : Except ε α → Action m α
  | .ok x => pure x
  | .error e => throw (.error (context :: report e))

def requireFile (context : String) (x : m (Except FileFault α)) : Action m α := do
  require context (fun fault => [fault.message]) (← x)

/-- Carries out something that may fail on a document. -/
def requireInput (context : String) (x : ExceptT InputError m α) : Action m α := do
  require context InputError.report (← x.run)

def onDatabase (f : Database ColumnValue → α × Database ColumnValue) : Action m α :=
  modifyGet fun t => let (x, database) := f t.database; (x, { t with database })

def store : Store (Database ColumnValue) := Database.store ColumnValue.system true

def inMemory : String := ":memory:"

/-- The database of a file, an empty one if there is no such file. -/
def openDatabase (w : Workspace m) (path : String) : Action m Unit := do
  if path = inMemory then return
  let refuse (detail : String) : Action m Unit :=
    require s!"Failed to open database {path}" (fun e => [e.message])
      (.error (StoreError.failed .connection (some detail)))
  let folder := Path.parent path
  if folder ≠ "" then
    match ← w.makeFolder folder with
    | .ok () => pure ()
    | .error fault => refuse s!"{fault.message}: {folder}"
  match ← w.read path with
  | .error .notFound => return
  | .error fault => refuse s!"{fault.message}: {path}"
  | .ok content =>
    match Snapshot.ofText? ColumnValue.system content with
    | some database => modify fun t => { t with database }
    | none =>
      refuse s!"IO Error: The file \"{path}\" exists, but it is not a valid DuckDB database file!: {path}"

def keepDatabase (w : Workspace m) (path : String) : Action m Unit := do
  if path = inMemory then return
  let content := Snapshot.render ColumnValue.system (← get).database
  requireFile s!"Failed to write {path}" (w.write path content)

/-- Carries out something on the database of a file, which then keeps what was done, also before a
failure. -/
def withDatabase (w : Workspace m) (path : String) (action : Action m Unit) : Action m Unit := do
  openDatabase w path
  let result ← ExceptT.lift action.run
  keepDatabase w path
  MonadExcept.ofExcept result

end TreeStore.Cli
