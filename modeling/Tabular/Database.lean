import Tabular.JoinRows
import Tabular.Sorting
import Tabular.Table
import Tabular.Timestamp

/-!
Databases.

A database is a set of named tables. Its operations are functions: an operation that fails leaves
nothing behind, because its result is the only trace of it. `Database.find` runs a search in five
stages: joins, condition, order, projection, and the choice of rows.
-/

namespace Tabular

/-- A database. -/
structure Database where
  createdAt : Timestamp
  tables : Keyed Table
  deriving DecidableEq

/-- What is told about a database. -/
structure DatabaseDescription where
  database : String
  createdAt : Timestamp
  tables : List TableDescription
  deriving DecidableEq, Repr

namespace Database

variable [PatternCompiler]

/-- A database without tables. -/
def new (createdAt : Timestamp) : Database := { createdAt, tables := Keyed.empty }

/-- The table of a name. -/
def table (db : Database) (name : String) : Except StorageError Table :=
  match db.tables.get? name with
  | some t => .ok t
  | none => .error (.tableNotFound name)

/-- The database with a table under a name. -/
def setTable (db : Database) (name : String) (t : Table) : Database :=
  { db with tables := db.tables.insert name t }

/-! ### Tables -/

/-- Creates a table. -/
def createTable (db : Database) (spec : TableSpec) : Except StorageError Database :=
  match db.tables.get? spec.name with
  | some _ => .error (.tableExists spec.name)
  | none => .ok (db.setTable spec.name (Table.ofSpec spec))

/-- Drops a table. -/
def dropTable (db : Database) (name : String) : Except StorageError Database :=
  match db.tables.get? name with
  | some _ => .ok { db with tables := db.tables.erase name }
  | none => .error (.tableNotFound name)

/-- Describes a table. -/
def describeTable (db : Database) (name : String) : Except StorageError TableDescription := do
  return (← db.table name).describe name

/-- Describes a database under a name. -/
def describe (db : Database) (name : String) : DatabaseDescription :=
  { database := name
    createdAt := db.createdAt
    tables := db.tables.entries.map fun e => e.2.describe e.1 }

/-! ### Rows -/

/-- Inserts a row. -/
def insert (db : Database) (spec : InsertSpec) : Except StorageError Database := do
  let t ← db.table spec.table
  return db.setTable spec.table (← t.insert spec)

/-- Updates rows: their number and the database afterwards. -/
def update (db : Database) (q : QuerySpec) : Except StorageError (Nat × Database) := do
  let t ← db.table q.table
  let (affected, t) ← t.update q
  return (affected, db.setTable q.table t)

/-- Deletes rows: their number and the database afterwards. -/
def delete (db : Database) (q : QuerySpec) : Except StorageError (Nat × Database) := do
  let t ← db.table q.table
  let (affected, t) ← t.delete q
  return (affected, db.setTable q.table t)

/-! ### Search -/

/-- Rows and the columns they have. -/
structure Selection where
  rows : List Row
  columns : List String
  deriving DecidableEq

/-- Joins one more table. -/
def joinTable (db : Database) (base : String) (s : Selection) (j : Join) :
    Except StorageError Selection := do
  let other ← db.table j.table
  let (rows, columns) ← j.rows base s.rows s.columns other.allColumns other.rows
  return { rows, columns }

/-- The column that a name means among those of a selection. -/
def Selection.column (s : Selection) (base name : String) : Except StorageError String :=
  match Column.resolve? s.columns base name with
  | some c => .ok c
  | none => .error (.columnNotFound base name)

/-- The order of two rows by one column. -/
def compareRows (ascending : Bool) (column : String) (a b : Row) : Ordering :=
  let o := Cell.compareCells (a.value? column) (b.value? column)
  if ascending then o else o.swap

/-- Rows in the order of one column. Cells that are compared as numbers and cells that are compared
as text need not be in one order: then the sort may give up. -/
def sortRows (ascending : Bool) (column : String) (rows : List Row) :
    Except StorageError (List Row) :=
  match Sorting.stableSort (compareRows ascending column · · == .lt) rows with
  | some sorted => .ok sorted
  | none => .error .disorder

/-- Rows in the order of a column, or as they are without one. -/
def arrange (ascending : Bool) (column : Option String) (rows : List Row) :
    Except StorageError (List Row) :=
  match column with
  | some c => sortRows ascending c rows
  | none => .ok rows

/-- A row under the labels of a projection, each with the column that it shows. -/
def projectRow (projection : List (String × String)) (row : Row) : Row :=
  Keyed.ofList (projection.map fun p => (p.1, row.value? p.2))

/-- At most `limit` items after the first `offset` ones. -/
def page {α : Type} (limit offset : Option Nat) (l : List α) : List α :=
  let rest := l.drop (offset.getD 0)
  match limit with
  | some n => rest.take n
  | none => rest

/-- The rows of a search. -/
def find (db : Database) (q : QuerySpec) : Except StorageError (List Row) := do
  let t ← db.table q.table
  let s ← q.joins.foldlM (db.joinTable q.table) { rows := t.rows, columns := t.allColumns }
  let p ← q.condition.mapM (t.predicateOn q.table (s.column q.table))
  let rows := s.rows.filter (Predicate.optionHolds p)
  let order ← q.orderBy.mapM (s.column q.table)
  let rows ← arrange q.ascending order rows
  let projection ← q.columns.mapM fun labels => labels.mapM fun l => do
    return (l, ← s.column q.table l)
  let rows := match projection with
    | some p => rows.map (projectRow p)
    | none => rows
  let rows := if q.distinct then rows.eraseDups else rows
  return page q.limit q.offset rows

end Database

end Tabular
