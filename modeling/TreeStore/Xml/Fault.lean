/-! What can be wrong with an XML document. -/

namespace TreeStore.Xml

inductive Fault where
  /-- Markup that does not end, or a closing tag that closes nothing. -/
  | markup
  | badAttribute (tag : String)
  | badValue (key tag : String)
  | notClosed (tag : String)
  | secondRoot (tag : String)
  | noRoot
  | noEntities (root : String)
  | noName (tag : String)
  | noTarget (entity : String)
deriving DecidableEq, Repr

def Fault.message : Fault → String
  | .markup => "XML error"
  | .badAttribute tag => s!"bad attribute on <{tag}>"
  | .badValue key tag => s!"bad value for '{key}' on <{tag}>"
  | .notClosed tag => s!"element <{tag}> is not closed"
  | .secondRoot tag => s!"second root element <{tag}>"
  | .noRoot => "document has no root element"
  | .noEntities root => s!"no <Enitity> elements below <{root}>"
  | .noName tag => s!"<{tag}> element without a Name"
  | .noTarget entity => s!"<relation> in entity '{entity}' has no target"

end TreeStore.Xml
