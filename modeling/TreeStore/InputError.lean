import TreeStore.Config
import TreeStore.Ident
import TreeStore.Files.Fault
import TreeStore.Xml.Fault

/-! Why something that was handed in cannot be used: settings, models, trees and names. -/

namespace TreeStore

/-- What is wrong with the text of a document, in the terms of its format. -/
inductive DocumentFault where
  | content (f : Fault)
  | xml (f : Xml.Fault)
deriving DecidableEq, Repr

def DocumentFault.message : DocumentFault → String
  | .content f => f.message
  | .xml f => f.message

/-- Why no model can be inferred from a JSON document. -/
inductive InferFault where
  | notObject
  | blankRoot
deriving DecidableEq, Repr

def InferFault.message : InferFault → String
  | .notObject => "top-level JSON value must be an object"
  | .blankRoot => "root entity name is empty"

inductive InputError where
  | noConfig (path : String)
  | badConfig (path : String) (fault : Fault)
  | unusableConfig (fault : ConfigFault)
  | badModel (origin : String) (fault : DocumentFault)
  | badTree (origin : String) (fault : DocumentFault)
  | badIdentifier (rejection : IdentRejection)
  | unknownFormat (path : String)
  | cannotInfer (fault : InferFault)
  | unreadable (path : String) (fault : FileFault)
  | badJson
deriving DecidableEq, Repr

namespace InputError

def message : InputError → String
  | .noConfig path => s!"[E001] Config file not found: {path}"
  | .badConfig path fault => s!"[E002] Failed to parse config {path}: {fault.message}"
  | .unusableConfig fault => s!"[E003] Invalid config: {fault.message}"
  | .badModel origin fault => s!"[E004] Failed to parse meta-model {origin}: {fault.message}"
  | .badTree origin fault => s!"[E005] Failed to parse instance document {origin}: {fault.message}"
  | .badIdentifier rejection => rejection.message
  | .unknownFormat path =>
    s!"[E007] Unsupported document format for '{path}' (expected .yml, .yaml, .json or .xml)"
  | .cannotInfer fault => s!"[E008] Cannot infer a meta-model: {fault.message}"
  | .unreadable path fault => s!"[E009] Failed to read '{path}': {fault.message}"
  | .badJson => "[E011] JSON error"

/-- The message, and the message of what has caused the error. -/
def report : InputError → List String
  | .unreadable path fault => [(InputError.unreadable path fault).message, fault.message]
  | e => [e.message]

end InputError

end TreeStore
