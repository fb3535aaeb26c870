import TreeStore.Xml.Event
import TreeStore.Text.Case
import TreeStore.Tree.Basic

/-! Element trees: what the events of a text amount to when every opened tag is closed and there is one
root. An element tree is an instance tree as it stands. -/

namespace TreeStore.Xml

structure Element where
  name : String
  attributes : List (String × String)
  children : List Element

namespace Element

/-- An element whose closing tag is still to come. Its children are last first. -/
structure Pending where
  tag : Tag
  children : List Element

def Pending.complete (p : Pending) : Element := ⟨p.tag.name, p.tag.attributes, p.children.reverse⟩

/-- The open elements, innermost first, and the root once it is complete. -/
structure Progress where
  pending : List Pending
  root? : Option Element

/-- Places a complete element below the innermost open one, or as the root. -/
def Progress.attach (p : Progress) (e : Element) : Except Fault Progress :=
  match p.pending, p.root? with
  | inner :: outer, root? => .ok ⟨{ inner with children := e :: inner.children } :: outer, root?⟩
  | [], some _ => .error (.secondRoot e.name)
  | [], none => .ok ⟨[], some e⟩

def Progress.step (p : Progress) : Event → Except Fault Progress
  | .start tag => .ok ⟨⟨tag, []⟩ :: p.pending, p.root?⟩
  | .empty tag => p.attach ⟨tag.name, tag.attributes, []⟩
  | .close => match p.pending with
    | inner :: outer => Progress.attach ⟨outer, p.root?⟩ inner.complete
    | [] => .error .markup
  | .other => .ok p

def Progress.finish (p : Progress) : Except Fault Element :=
  match p.pending, p.root? with
  | inner :: _, _ => .error (.notClosed inner.tag.name)
  | [], some root => .ok root
  | [], none => .error .noRoot

def ofEvents (es : Events) : Except Fault Element := do
  let p ← es.list.foldlM Progress.step ⟨[], none⟩
  match es.fault? with
  | some fault => throw fault
  | none => p.finish

def ofText (s : String) : Except Fault Element := ofEvents (Events.ofText s)

/-- The first attribute of a name, in whatever case it is written. -/
def attribute? (e : Element) (key : String) : Option String :=
  (e.attributes.find? fun a => Text.sameIgnoringCase a.1 key).map (·.2)

mutual

/-- The instance tree with the same types, attributes and children. -/
def toTree : Element → Tree
  | ⟨name, attributes, children⟩ => ⟨name, .ofList attributes, toTrees children⟩

def toTrees : List Element → List Tree
  | [] => []
  | e :: rest => toTree e :: toTrees rest

end

end Element

end TreeStore.Xml
