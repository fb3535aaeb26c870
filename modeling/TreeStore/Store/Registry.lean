import TreeStore.Store.Request
import TreeStore.Text.Shown

/-! The hierarchy as a table of a store. An entry is registered unless its pair is there. -/

namespace TreeStore

/-- Why the hierarchy of a store could not be read or written. -/
inductive RegistryError where
  | store (error : StoreError)
  | malformed (row : Row)
deriving DecidableEq, Repr

def RegistryError.message : RegistryError → String
  | .store error => s!"[S010] Registry store operation failed: {error.message}"
  | .malformed row =>
    "[S011] Malformed hierarchy registry row: [" ++ ", ".intercalate (row.map Text.shownOption) ++ "]"

namespace Registry

def selectRelation (parent child : String) : Select where
  selection := .columns [Schema.relationColumn]
  table := Schema.registryTable
  conditions :=
    [.equals Schema.parentColumn { param := .text parent },
      .equals Schema.childColumn { param := .text child }]

def selectAll : Select where
  selection := .columns [Schema.parentColumn, Schema.childColumn, Schema.relationColumn]
  table := Schema.registryTable
  orderBy := [Schema.parentColumn, Schema.childColumn]

def insertEntry (e : HierarchyEntry) : Insert where
  table := Schema.registryTable
  values :=
    [(Schema.parentColumn, { param := .text e.parent }),
      (Schema.childColumn, { param := .text e.child }),
      (Schema.relationColumn, { param := .text e.relation })]

variable {σ : Type}

/-- Registers an entry, and tells whether it is new. -/
def register (store : Store σ) (e : HierarchyEntry) (s : σ) : Except RegistryError Bool × σ :=
  match store.answer (.select (selectRelation e.parent e.child)) s with
  | (.error error, s) => (.error (.store error), s)
  | (.ok (_ :: _), s) => (.ok false, s)
  | (.ok [], s) =>
    match store.answer (.insert (insertEntry e)) s with
    | (.error error, s) => (.error (.store error), s)
    | (.ok (), s) => (.ok true, s)

def entryOfRow (row : Row) : Except RegistryError HierarchyEntry :=
  match row with
  | [some parent, some child, some relation] => .ok ⟨parent, child, relation⟩
  | row => .error (.malformed row)

def load (store : Store σ) (s : σ) : Except RegistryError Hierarchy × σ :=
  match store.answer (.select selectAll) s with
  | (.error error, s) => (.error (.store error), s)
  | (.ok rows, s) => (Hierarchy.ofEntries <$> rows.mapM entryOfRow, s)

end Registry

end TreeStore
