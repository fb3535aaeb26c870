/-! Why a file could not be read or written. -/

namespace TreeStore

inductive FileFault where
  | notFound
  /-- A folder was to be made where a file is. -/
  | exists
  | notFolder
  | isFolder
  | denied
  | notText
  | other (text : String)
deriving DecidableEq, Repr

def FileFault.message : FileFault → String
  | .notFound => "No such file or directory (os error 2)"
  | .denied => "Permission denied (os error 13)"
  | .exists => "File exists (os error 17)"
  | .notFolder => "Not a directory (os error 20)"
  | .isFolder => "Is a directory (os error 21)"
  | .notText => "stream did not contain valid UTF-8"
  | .other text => text

end TreeStore
