import Tabular.Column
import Tabular.Predicate

/-!
Tables.

A table has columns, perhaps a primary key among them, and rows in the order of their insertion. Its
operations keep three facts: the columns are distinct, every row has exactly the columns of the
table, and no two rows have equal values for the primary key.
-/

namespace Tabular

/-- A table. -/
structure Table where
  primaryKey : Option String
  /-- The columns besides the primary key. -/
  columns : List String
  rows : List Row
  deriving DecidableEq

/-- What is told about a table. -/
structure TableDescription where
  name : String
  primaryKey : Option String
  columns : List String
  rows : Nat
  deriving DecidableEq, Repr

namespace Table

variable [PatternCompiler]

/-- Every column, the primary key first. -/
def allColumns (t : Table) : List String :=
  t.primaryKey.toList ++ t.columns

/-- Takes a column into a list of columns, unless it is the primary key or already there. -/
def addColumn (primaryKey : Option String) (columns : List String) (column : String) :
    List String :=
  if some column = primaryKey ∨ column ∈ columns then columns else columns ++ [column]

/-- A table without rows. -/
def ofSpec (spec : TableSpec) : Table :=
  { primaryKey := spec.primaryKey
    columns := spec.columns.foldl (addColumn spec.primaryKey) []
    rows := [] }

/-- The description of a table under a name. -/
def describe (t : Table) (name : String) : TableDescription :=
  { name, primaryKey := t.primaryKey, columns := t.columns, rows := t.rows.length }

/-- The column that a name means in a table. -/
def column (t : Table) (table name : String) : Except StorageError String :=
  match Column.resolve? t.allColumns table name with
  | some c => .ok c
  | none => .error (.columnNotFound table name)

/-- The column that a condition is about. `find` finds the column of a name. -/
def targetColumn (t : Table) (table : String) (find : String → Except StorageError String) :
    Target → Except StorageError String
  | .field name => find name
  | .primaryKey =>
    match t.primaryKey with
    | some key => .ok key
    | none => .error (.noPrimaryKey table)

/-- The predicate of a condition. `find` finds the column of a name. -/
def predicateOn (t : Table) (table : String) (find : String → Except StorageError String)
    (c : Condition) : Except StorageError Predicate := do
  let column ← t.targetColumn table find c.target
  let test ← Test.of c.operator c.operand
  return { column, test }

/-- The predicate of a condition on the columns of a table. -/
def predicate (t : Table) (table : String) (c : Condition) : Except StorageError Predicate :=
  t.predicateOn table (t.column table) c

/-! ### Insertion -/

/-- Sets the columns that names mean to values, one after another. -/
def assignAll (find : String → Except StorageError String) (row : Row) :
    List (String × String) → Except StorageError Row
  | [] => .ok row
  | (name, value) :: rest => do
    let column ← find name
    assignAll find (row.insert column (some value)) rest

/-- Refuses a row that lacks a value for the primary key, or whose value an earlier row has. -/
def checkKey (t : Table) (row : Row) : Except StorageError Unit :=
  match t.primaryKey with
  | none => .ok ()
  | some key =>
    match row.value? key with
    | none => .error (.missingKey key)
    | some value =>
      if t.rows.any fun r => (Row.value? r key).any fun v => Cell.sameValue v value then
        .error (.duplicateKey key value)
      else .ok ()

/-- The table with one more row at the end. -/
def insert (t : Table) (spec : InsertSpec) : Except StorageError Table := do
  let names := spec.columns.getD t.allColumns
  if names.length ≠ spec.values.length then
    throw (.valueCount names.length spec.values.length)
  let row ←
    assignAll (t.column spec.table) (Row.nulls t.allColumns) (names.zip spec.values)
  t.checkKey row
  return { t with rows := t.rows ++ [row] }

/-! ### Update and deletion -/

/-- The first value of a column, in canonical form, that an earlier row or `seen` has already. -/
def repeated? (key : String) (seen : List String) : List Row → Option String
  | [] => none
  | row :: rows =>
    match row.value? key with
    | none => repeated? key seen rows
    | some value =>
      if Cell.canonical value ∈ seen then some value
      else repeated? key (Cell.canonical value :: seen) rows

/-- Refuses rows of which two have equal values for the primary key. -/
def checkUnique (t : Table) (rows : List Row) : Except StorageError Unit :=
  match t.primaryKey with
  | none => .ok ()
  | some key =>
    match repeated? key [] rows with
    | some value => .error (.duplicateKey key value)
    | none => .ok ()

/-- A row with new values in some columns. -/
def assignRow (assigned : List (String × String)) (row : Row) : Row :=
  assigned.foldl (fun r a => r.insert a.1 (some a.2)) row

/-- The column and the value of an assignment. -/
def assignedColumn (t : Table) (table : String) (a : Assignment) :
    Except StorageError (String × String) := do
  return (← t.column table a.column, a.value)

/-- Assigns columns of the rows that a query selects: their number and the table afterwards. -/
def update (t : Table) (q : QuerySpec) : Except StorageError (Nat × Table) := do
  let p ← q.condition.mapM (t.predicate q.table)
  let assigned ← q.assignments.mapM (t.assignedColumn q.table)
  let rows := t.rows.map fun r => if Predicate.optionHolds p r then assignRow assigned r else r
  t.checkUnique rows
  return ((t.rows.filter (Predicate.optionHolds p)).length, { t with rows })

/-- Removes the rows that a query selects: their number and the table afterwards. -/
def delete (t : Table) (q : QuerySpec) : Except StorageError (Nat × Table) := do
  let p ← q.condition.mapM (t.predicate q.table)
  return ((t.rows.filter (Predicate.optionHolds p)).length,
    { t with rows := t.rows.filter fun r => !Predicate.optionHolds p r })

end Table

end Tabular
