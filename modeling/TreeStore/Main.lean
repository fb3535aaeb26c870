import TreeStore.Cli.Run

/-! The command line. -/

namespace TreeStore.Cli

/-- The fault that a failed access to a file amounts to. -/
def faultOf (e : IO.Error) : FileFault :=
  match e with
  | .noFileOrDirectory .. => .notFound
  | .permissionDenied .. => .denied
  | .alreadyExists .. => .exists
  | .inappropriateType _ code _ => if code = 21 then .isFolder else .notFolder
  | e => .other (toString e)

def attempt (action : IO (Except FileFault α)) : IO (Except FileFault α) := do
  match ← action.toBaseIO with
  | .ok result => return result
  | .error e => return .error (faultOf e)

def systemFiles : Workspace IO where
  read path := attempt do
    match String.fromUTF8? (← IO.FS.readBinFile path) with
    | some text => return .ok text
    | none => return .error .notText
  write path text := attempt do
    IO.FS.writeFile path text
    return .ok ()
  makeFolder path := attempt do
    IO.FS.createDirAll path
    return .ok ()

end TreeStore.Cli

def main (words : List String) : IO UInt32 := do
  let outcome ← TreeStore.Cli.run TreeStore.Cli.systemFiles words
  IO.print outcome.output
  IO.eprint outcome.messages
  return outcome.code.toUInt32
