import TreeStore.Store.Registry
import TreeStore.Schema.Basic

/-! Applying statements to a store, one after another. A table that is there already is passed over;
another failure is noted, and the statements after it are applied all the same. -/

namespace TreeStore

/-- Why a statement has failed. -/
inductive ApplyFault where
  | store (error : StoreError)
  | registry (error : RegistryError)
deriving DecidableEq, Repr

def ApplyFault.message : ApplyFault → String
  | .store error => error.message
  | .registry error => error.message

/-- What has become of statements, by their labels. -/
structure ApplyReport where
  executed : List String := []
  alreadyExisted : List (String × StoreError) := []
  failed : List (String × ApplyFault) := []
  registered : Nat := 0
  registrySkipped : Nat := 0

namespace ApplyReport

def isClean (r : ApplyReport) : Bool := r.failed.isEmpty

def total (r : ApplyReport) : Nat :=
  r.executed.length + r.alreadyExisted.length + r.failed.length + r.registered + r.registrySkipped

end ApplyReport

namespace Store

variable {σ : Type}

def applyStatement (store : Store σ) (report : ApplyReport) (s : σ) (stmt : Statement) :
    ApplyReport × σ :=
  match stmt with
  | .register e => match Registry.register store e s with
    | (.ok true, s) => ({ report with registered := report.registered + 1 }, s)
    | (.ok false, s) => ({ report with registrySkipped := report.registrySkipped + 1 }, s)
    | (.error error, s) =>
      ({ report with failed := report.failed ++ [(stmt.label, .registry error)] }, s)
  | .create t => match store.answer (.create t) s with
    | (.ok (), s) => ({ report with executed := report.executed ++ [stmt.label] }, s)
    | (.error error, s) =>
      if error.isAlreadyExists then
        ({ report with alreadyExisted := report.alreadyExisted ++ [(stmt.label, error)] }, s)
      else ({ report with failed := report.failed ++ [(stmt.label, .store error)] }, s)

def apply (store : Store σ) (stmts : List Statement) (s : σ) : ApplyReport × σ :=
  stmts.foldl (fun (report, s) stmt => store.applyStatement report s stmt) ({}, s)

end Store

end TreeStore
