import TreeStore.Document.Record
import TreeStore.Text.Blank

/-! Settings: where the database is and how many connections it may have, how trees are loaded, and how
much of a table is shown. What a document does not set has a default. -/

namespace TreeStore

structure DatabaseSettings where
  path : String := "target/metamorph.duckdb"
  maxConnections : Nat := 4
  acquireTimeoutMs : Nat := 5000
deriving DecidableEq, Repr

structure LoadSettings where
  /-- The depth of the deepest tree that is loaded. -/
  maxDepth : Nat := 48
  /-- Whether a row is kept for every pair of parent and child. -/
  recordJunctions : Bool := true
deriving DecidableEq, Repr

structure Config where
  database : DatabaseSettings := {}
  load : LoadSettings := {}
  /-- The rows of a table that are shown. -/
  rowLimit : Nat := 10
deriving DecidableEq, Repr

/-- Why settings cannot be used. -/
inductive ConfigFault where
  | noConnections
  | noPath
  | noDepth
deriving DecidableEq, Repr

def ConfigFault.message : ConfigFault → String
  | .noConnections => "database.max_connections must be at least 1"
  | .noPath => "database.path must not be empty"
  | .noDepth => "load.max_depth must be at least 1"

def DatabaseSettings.ofNode : Node → Except Fault DatabaseSettings :=
  Record.read [⟨"path", false⟩, ⟨"max_connections", false⟩, ⟨"acquire_timeout_ms", false⟩]
    (fun d field v => match field with
      | "path" => return { d with path := ← v.readText }
      | "max_connections" => return { d with maxConnections := ← v.readNatural }
      | _ => return { d with acquireTimeoutMs := ← v.readNatural })
    {}

def LoadSettings.ofNode : Node → Except Fault LoadSettings :=
  Record.read [⟨"max_depth", false⟩, ⟨"record_junctions", false⟩]
    (fun l field v => match field with
      | "max_depth" => return { l with maxDepth := ← v.readNatural }
      | _ => return { l with recordJunctions := ← v.readFlag })
    {}

def Config.readShow (limit : Nat) : Node → Except Fault Nat :=
  Record.read [⟨"row_limit", false⟩] (fun _ _ v => v.readNatural) limit

namespace Config

def ofNode : Node → Except Fault Config :=
  Record.read [⟨"database", false⟩, ⟨"load", false⟩, ⟨"show", false⟩]
    (fun c field v => match field with
      | "database" => return { c with database := ← DatabaseSettings.ofNode v }
      | "load" => return { c with load := ← LoadSettings.ofNode v }
      | _ => return { c with rowLimit := ← readShow c.rowLimit v })
    {}

/-- The first reason why the settings cannot be used. -/
def fault? (c : Config) : Option ConfigFault :=
  if c.database.maxConnections = 0 then some .noConnections
  else if Text.isBlank c.database.path then some .noPath
  else if c.load.maxDepth = 0 then some .noDepth
  else none

/-- Whether the database is not kept in a file. -/
def isInMemory (c : Config) : Bool := c.database.path = ":memory:"

end Config

/-- Bounds of a connection pool. -/
structure PoolOptions where
  maxSize : Nat
  timeoutMs : Nat
deriving DecidableEq, Repr

namespace PoolOptions

def maxConnections : Nat := 0xFFFFFFFF

/-- The pool for some settings: one connection at least and a millisecond of patience. -/
def ofConfig (c : Config) : PoolOptions where
  maxSize := max 1 (min c.database.maxConnections maxConnections)
  timeoutMs := max 1 c.database.acquireTimeoutMs

end PoolOptions

/-- The connections of a pool. -/
structure PoolStatus where
  openCount : Nat
  idleCount : Nat
  maxSize : Nat

def PoolStatus.inUse (s : PoolStatus) : Nat := s.openCount - s.idleCount

end TreeStore
