import Tabular.Statement.Basic

/-!
Requests to the storage.

A request is what remains of a statement once its texts are resolved: names without blanks, values
without quotes and escapes, lists cut into their items.
-/

namespace Tabular

/-- The creation of a table. -/
structure TableSpec where
  name : String
  primaryKey : Option String
  /-- The columns besides the primary key. -/
  columns : List String
  deriving DecidableEq, Repr

/-- The insertion of a row. -/
structure InsertSpec where
  table : String
  /-- The columns that the values are for; all columns in their order, if there is no list. -/
  columns : Option (List String)
  values : List String
  deriving DecidableEq, Repr

/-- What a column is compared with. -/
inductive Operand where
  | scalar (value : String)
  | list (values : List String)
  deriving DecidableEq, Repr

/-- A condition on one column. -/
structure Condition where
  target : Target
  operator : Operator
  operand : Operand
  deriving DecidableEq, Repr

/-- A column and the value that it is assigned. -/
structure Assignment where
  column : String
  value : String
  deriving DecidableEq, Repr

/-- A selection of rows, shared by searches, deletions and updates. -/
structure QuerySpec where
  table : String
  /-- The columns to show; every column, if there is no list. -/
  columns : Option (List String) := none
  distinct : Bool := false
  joins : List Join := []
  condition : Option Condition := none
  orderBy : Option String := none
  ascending : Bool := true
  limit : Option Nat := none
  offset : Option Nat := none
  /-- What an update assigns. -/
  assignments : List Assignment := []
  deriving DecidableEq, Repr

/-- A request to the tables of one database. -/
inductive Request where
  | createTable (spec : TableSpec)
  | insert (spec : InsertSpec)
  | find (spec : QuerySpec)
  | delete (spec : QuerySpec)
  | update (spec : QuerySpec)
  deriving DecidableEq, Repr

end Tabular
