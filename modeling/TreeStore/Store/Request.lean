import TreeStore.Schema.Sql
import TreeStore.Store.Error

/-! What a store can be asked, and what a store is: something that answers requests and changes by them.
Requests are data; their SQL text, with a question mark for every parameter, is derived. -/

namespace TreeStore

/-- A value bound to a statement. -/
inductive Param where
  | text (s : String)
  | int (n : Int)
deriving DecidableEq, Repr

/-- A value in a statement: a parameter, read as a column type if there is one. -/
structure Operand where
  param : Param
  type? : Option String := none
deriving DecidableEq, Repr

def Operand.sql (o : Operand) : String :=
  match o.type? with
  | some type => s!"CAST(? AS {type})"
  | none => "?"

/-- A condition on a column. -/
inductive Condition where
  | equals (column : String) (value : Operand)
  | isNull (column : String)
deriving DecidableEq, Repr

namespace Condition

def sql : Condition → String
  | .equals column value => Ident.quote column ++ " = " ++ value.sql
  | .isNull column => Ident.quote column ++ " IS NULL"

def param? : Condition → Option Param
  | .equals _ value => some value.param
  | .isNull _ => none

end Condition

/-- What is wanted of each row. -/
inductive Selection where
  | all
  /-- The number one. -/
  | one
  | columns (names : List String)
deriving DecidableEq, Repr

def Selection.sql : Selection → String
  | .all => "*"
  | .one => "1"
  | .columns names => quotedNames names

structure Select where
  selection : Selection
  table : String
  conditions : List Condition := []
  orderBy : List String := []
  /-- Whether one row is enough. -/
  firstOnly : Bool := false
deriving DecidableEq, Repr

namespace Select

def sql (q : Select) : String :=
  "SELECT " ++ q.selection.sql ++ " FROM " ++ Ident.quote q.table
    ++ (if q.conditions.isEmpty then "" else " WHERE " ++ " AND ".intercalate (q.conditions.map (·.sql)))
    ++ (if q.orderBy.isEmpty then "" else " ORDER BY " ++ quotedNames q.orderBy)
    ++ (if q.firstOnly then " LIMIT 1" else "")

def params (q : Select) : List Param := q.conditions.filterMap (·.param?)

end Select

/-- A row to be inserted, by column. -/
structure Insert where
  table : String
  values : List (String × Operand)
deriving DecidableEq, Repr

namespace Insert

def sql (i : Insert) : String :=
  "INSERT INTO " ++ Ident.quote i.table ++ " (" ++ quotedNames (i.values.map (·.1)) ++ ") VALUES ("
    ++ ", ".intercalate (i.values.map (·.2.sql)) ++ ")"

def params (i : Insert) : List Param := i.values.map (·.2.param)

end Insert

/-- A column as a store's catalog has it. -/
structure CatalogColumn where
  name : String
  type : String
deriving DecidableEq, Repr

/-- A row of an answer; null is `none`. -/
abbrev Row := List (Option String)

inductive Request where
  | create (t : Table)
  | select (q : Select)
  | insert (i : Insert)
  /-- An insertion that gives the id of the new row. -/
  | insertReturning (i : Insert)
  /-- The columns of a table in order, none if there is no such table. -/
  | columnsOf (table : String)
deriving DecidableEq, Repr

namespace Request

@[reducible] def Answer : Request → Type
  | .create _ => Unit
  | .select _ => List Row
  | .insert _ => Unit
  | .insertReturning _ => Int
  | .columnsOf _ => List CatalogColumn

/-- The SQL text of a request, or the table whose columns it asks for. -/
def sql : Request → String
  | .create t => t.sql
  | .select q => q.sql
  | .insert i => i.sql
  | .insertReturning i => i.sql ++ " RETURNING " ++ Ident.quote Schema.idColumn
  | .columnsOf table => table

def params : Request → List Param
  | .create _ => []
  | .select q => q.params
  | .insert i => i.params
  | .insertReturning i => i.params
  | .columnsOf _ => []

def method : Request → String
  | .create _ => "execute"
  | .select _ => "query"
  | .insert _ => "execute_with"
  | .insertReturning _ => "insert_returning_id"
  | .columnsOf _ => "columns_of"

end Request

/-- Answers to requests, over the states of a store. -/
structure Store (σ : Type) where
  answer : (r : Request) → σ → Except StoreError r.Answer × σ

end TreeStore
