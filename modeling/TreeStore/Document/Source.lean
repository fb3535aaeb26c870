import TreeStore.InputError
import TreeStore.Document.Format
import TreeStore.Model.Document
import TreeStore.Model.Xml
import TreeStore.Tree.Document
import TreeStore.Json.Reader
import TreeStore.Yaml.Reader
import TreeStore.Yaml.Printer

/-! Models and trees as texts: read from any format, and written as YAML. -/

namespace TreeStore

/-- Reads what a document holds, given how each kind of document holds it. -/
def Format.decode (format : Format) (text : String) (ofNode : Node → Except Fault α)
    (ofXml : Xml.Element → Except Xml.Fault α) : Except DocumentFault α :=
  match format with
  | .yaml => ((Yaml.read text).decode ofNode).mapError .content
  | .json => ((Json.read text).decode ofNode).mapError .content
  | .xml => (Xml.Element.ofText text >>= ofXml).mapError .xml

def Model.ofText (format : Format) (origin text : String) : Except InputError Model :=
  (format.decode text Model.ofNode (·.toModel)).mapError (.badModel origin)

def Model.yaml (m : Model) : String := Yaml.render m.toNode

def Tree.ofText (format : Format) (origin text : String) : Except InputError Tree :=
  (format.decode text Tree.ofNode fun e => .ok e.toTree).mapError (.badTree origin)

def Tree.yaml (t : Tree) : String := Yaml.render t.toNode

/-- Settings from a text, refused if they cannot be used. -/
def Config.ofText (path text : String) : Except InputError Config := do
  let c ← ((Yaml.read text).decode Config.ofNode).mapError (.badConfig path)
  match c.fault? with
  | some fault => throw (.unusableConfig fault)
  | none => return c

end TreeStore
