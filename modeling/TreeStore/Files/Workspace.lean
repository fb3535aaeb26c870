import TreeStore.Document.Source

/-! Where documents are read and results are written. Access to files is a parameter, so that what is done
with them can be followed without any. -/

namespace TreeStore

abbrev FileReader (m : Type → Type) := String → m (Except FileFault String)

structure Workspace (m : Type → Type) where
  read : FileReader m
  write : String → String → m (Except FileFault Unit)
  /-- Makes a folder and the folders around it, as far as they are missing. -/
  makeFolder : String → m (Except FileFault Unit)

/-- Whether a fault means that there is nothing at a path. -/
def FileFault.isAbsence (f : FileFault) : Bool := f = .notFound || f = .notFolder

namespace FileReader

variable {m : Type → Type} [Monad m] (read : FileReader m)

/-- Reads a file and tells the format of its document. -/
def document (path : String) : ExceptT InputError m (Format × String) := do
  match Format.ofPath? path with
  | none => throw (.unknownFormat path)
  | some format =>
    match ← read path with
    | .error fault => throw (.unreadable path fault)
    | .ok text => return (format, text)

def model (path : String) : ExceptT InputError m Model := do
  let (format, text) ← document read path
  MonadExcept.ofExcept (Model.ofText format path text)

def tree (path : String) : ExceptT InputError m Tree := do
  let (format, text) ← document read path
  MonadExcept.ofExcept (Tree.ofText format path text)

def config? (path : String) : ExceptT InputError m (Option Config) := do
  match ← read path with
  | .error fault => if fault.isAbsence then return none else throw (.unreadable path fault)
  | .ok text => some <$> MonadExcept.ofExcept (Config.ofText path text)

def config (path : String) : ExceptT InputError m Config := do
  match ← config? read path with
  | none => throw (.noConfig path)
  | some c => return c

/-- Reads settings, or takes the defaults if there are none. -/
def configOrDefault (path : String) : ExceptT InputError m Config := do
  return (← config? read path).getD {}

end FileReader

end TreeStore
