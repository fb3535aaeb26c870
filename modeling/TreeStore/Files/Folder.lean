import TreeStore.Files.Workspace

/-! A folder held in memory, with the files and folders in it. A place in it is the list of names that leads
there, the last one first. -/

namespace TreeStore

inductive FolderItem where
  | file (text : String)
  | folder
deriving DecidableEq, Repr

structure Folder where
  items : List (List String × FolderItem) := []

namespace Folder

def item? (f : Folder) (place : List String) : Option FolderItem :=
  if place = [] then some .folder else f.items.lookup place

/-- Puts an item at a place, in place of what is there. -/
def put (f : Folder) (place : List String) (item : FolderItem) : Folder :=
  ⟨(place, item) :: f.items.filter (·.1 ≠ place)⟩

/-- Goes from a folder to where a name leads, which has to be a folder. -/
def enter (f : Folder) (place : List String) (name : String) : Except FileFault (List String) :=
  if name = "" ∨ name = "." then .ok place
  else if name = ".." then (if place = [] then .error .notFound else .ok place.tail)
  else match f.item? (name :: place) with
    | some .folder => .ok (name :: place)
    | some (.file _) => .error .notFolder
    | none => .error .notFound

/-- The place that a path leads to. Nothing is known of what lies outside. -/
def locate (f : Folder) (path : String) : Except FileFault (List String) :=
  if path = "" ∨ path.startsWith "/" then .error .notFound
  else match (path.splitOn "/").reverse with
    | [] => .error .notFound
    | last :: before => do
      let place ← before.reverse.foldlM f.enter []
      if last = "" ∨ last = "." ∨ last = ".." then f.enter place last else return last :: place

def read (f : Folder) (path : String) : Except FileFault String := do
  match f.item? (← f.locate path) with
  | some (.file text) => return text
  | some .folder => throw .isFolder
  | none => throw .notFound

def write (f : Folder) (path text : String) : Except FileFault Folder := do
  let place ← f.locate path
  if f.item? place = some .folder then throw .isFolder
  return f.put place (.file text)

/-- Enters a folder, making it if there is none. -/
def enterOrMake (f : Folder × List String) (name : String) : Except FileFault (Folder × List String) :=
  match f.1.enter f.2 name with
  | .ok place => .ok (f.1, place)
  | .error .notFound => .ok (f.1.put (name :: f.2) .folder, name :: f.2)
  | .error fault => .error fault

def makeFolder (f : Folder) (path : String) : Except FileFault Folder := do
  if (f.read path).isOk then throw .exists
  let (f, _) ← (path.splitOn "/").foldlM enterOrMake (f, [])
  return f

def ofFiles (files : List (String × String)) : Folder :=
  ⟨files.map fun (name, text) => ([name], .file text)⟩

def change (f : Folder → Except FileFault Folder) : StateM Folder (Except FileFault Unit) := do
  match f (← get) with
  | .error fault => return .error fault
  | .ok folder => set folder; return .ok ()

def workspace : Workspace (StateM Folder) where
  read path := return (← get).read path
  write path text := change (·.write path text)
  makeFolder path := change (·.makeFolder path)

end Folder

end TreeStore
