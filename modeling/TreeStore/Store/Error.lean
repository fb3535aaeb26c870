/-! Why a store has not done what it was asked. A store may say more than the kind of failure. -/

namespace TreeStore

inductive StoreFault where
  | connection
  | execution
  | tableNotFound
  | alreadyExists
  | constraint
  | poisoned
  | internal
deriving DecidableEq, Repr

inductive StoreError where
  | failed (fault : StoreFault) (detail : Option String)
  /-- No connection became free in time. -/
  | poolTimeout (maxSize timeoutMs : Nat)
deriving DecidableEq, Repr

def StoreFault.label : StoreFault → String
  | .connection => "[D001] Database connection failed"
  | .execution => "[D002] SQL execution failed"
  | .tableNotFound => "[D003] Table or view not found"
  | .alreadyExists => "[D004] Object already exists"
  | .constraint => "[D005] Constraint violation"
  | .poisoned => "[D007] Database mutex poisoned"
  | .internal => "[D008] Internal database error"

namespace StoreError

def message : StoreError → String
  | .failed fault none => fault.label
  | .failed fault (some detail) => s!"{fault.label}: {detail}"
  | .poolTimeout maxSize timeoutMs =>
    s!"[D006] No connection available after {timeoutMs}ms (pool size {maxSize})"

/-- Whether something that was to be created is there already. -/
def isAlreadyExists : StoreError → Bool
  | .failed .alreadyExists _ => true
  | _ => false

def occursIn (part : List Char) : List Char → Bool
  | [] => part.isEmpty
  | c :: rest => part.isPrefixOf (c :: rest) || occursIn part rest

/-- The failure that a database's message tells. A violated constraint counts first, since its message
may name what exists already. -/
def ofMessage (text : String) : StoreError :=
  let holds (part : String) : Bool := occursIn part.toList text.toList
  let fault : StoreFault :=
    if holds "Constraint Error" then .constraint
    else if holds "already exists" then .alreadyExists
    else if holds "Table with name" || holds "Table or view with name"
      || (holds "Catalog Error" && holds "Table" && holds "not found") then .tableNotFound
    else .execution
  .failed fault (some text)

end StoreError

end TreeStore
