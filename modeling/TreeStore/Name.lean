import TreeStore.Ident
import TreeStore.Text.Case

/-! Names of entities, attributes and relations. A name is any text that is not blank; whether it may
stand in SQL is asked separately, so that the answer can say where the name was declared. Names that
differ in case only would name one table or column, so they are compared by key. -/

namespace TreeStore

/-- What a name names. -/
inductive NameKind where
  | entity
  | «attribute»
  | relation
deriving DecidableEq, Repr

def NameKind.word : NameKind → String
  | .entity => "entity"
  | .attribute => "attribute"
  | .relation => "relation"

structure Name where
  text : String
  notBlank : Text.isBlank text = false
deriving DecidableEq

namespace Name

def ofText? (s : String) : Option Name :=
  if h : Text.isBlank s = false then some ⟨s, h⟩ else none

def key (n : Name) : String := Text.lower n.text

/-- Refuses a name that is no identifier, saying the entity that declares it, if one does. -/
def check (n : Name) (kind : NameKind) (owner : Option String) : Except IdentRejection Unit :=
  Ident.check n.text <| match owner with
    | some o => s!"{kind.word} of {o}"
    | none => kind.word

end Name

end TreeStore
