import TreeStore.Load.Path
import TreeStore.Store.Registry

/-! Why a tree could not be loaded, and at which node. -/

namespace TreeStore

/-- How a tree goes against the hierarchy. -/
inductive Violation where
  | tooDeep (maxDepth : Nat)
  | badType (type : String)
  | badAttribute (name : String)
  /-- Two attributes of one node that differ in case only. -/
  | sameAttribute (first second : String)
  | notChild (child parent : String) (allowed : List String)
deriving DecidableEq, Repr

def Violation.message : Violation → String
  | .tooDeep maxDepth => s!"tree is deeper than the maximum of {maxDepth} levels"
  | .badType type => s!"'{type}' is not a valid entity name"
  | .badAttribute name => s!"'{name}' is not a valid attribute name"
  | .sameAttribute first second => s!"attributes '{first}' and '{second}' differ only in case"
  | .notChild child parent allowed =>
    let choices := if allowed.isEmpty then "none" else ", ".intercalate allowed
    s!"'{child}' is not a registered child of '{parent}' (allowed: {choices})"

/-- How a node does not fit the tables. -/
inductive Misfit where
  | noTable (table : String)
  | noId (table : String)
  | notColumn (attr table : String)
  | badType (column type : String)
  | noJunctionColumn (table column : String)
deriving DecidableEq, Repr

def Misfit.message : Misfit → String
  | .noTable table => s!"table '{table}' does not exist or has no columns"
  | .noId table => s!"table '{table}' has no '{Schema.idColumn}' column"
  | .notColumn name table => s!"attribute '{name}' is not a column of '{table}'"
  | .badType column type => s!"column '{column}' has unsupported type '{type}'"
  | .noJunctionColumn table column => s!"junction table '{table}' has no '{column}' column"

inductive LoadError where
  | violation (path : NodePath) (v : Violation)
  | misfit (path : NodePath) (m : Misfit)
  | store (path : NodePath) (error : StoreError)
  | registry (error : RegistryError)
deriving DecidableEq, Repr

def LoadError.message : LoadError → String
  | .violation path v => s!"[L001] Invalid instance tree at {path.text}: {v.message}"
  | .misfit path m => s!"[L002] Cannot map {path.text} onto the schema: {m.message}"
  | .store path error => s!"[L003] Store operation failed at {path.text}: {error.message}"
  | .registry error => s!"[L004] Failed to read hierarchy registry: {error.message}"

/-- The message, and the messages of what has caused the error. -/
def LoadError.report (e : LoadError) : List String :=
  e.message :: match e with
    | .store _ error => [error.message]
    | .registry (.store error) => [(RegistryError.store error).message, error.message]
    | .registry (.malformed row) => [(RegistryError.malformed row).message]
    | _ => []

end TreeStore
