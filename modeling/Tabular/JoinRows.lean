import Tabular.Cell
import Tabular.Column
import Tabular.Error
import Tabular.Row

/-!
Joining rows.

The rows of a joined table come under qualified names. A left row meets a right row when the two
columns of the join hold equal values, nulls never being equal. Left rows keep their order and each
of them is followed through the right rows in theirs; `LEFT` keeps a left row that meets none,
`RIGHT` appends the right rows that none met.
-/

namespace Tabular.Join

/-- The qualified names of the columns of the joined table. -/
def qualifiedColumns (j : Join) (columns : List String) : List String :=
  columns.map (Row.qualifiedName j.table)

/-- Whether the two columns hold equal values once two rows are put together. -/
def meets (first second : String) (left right : Row) : Bool :=
  let merged : Row := left.union right
  match merged.value? first, merged.value? second with
  | some a, some b => Cell.sameValue a b
  | _, _ => false

/-- The rows that a left row gives. -/
def leftRow (keepUnmatched : Bool) (first second : String) (rightColumns : List String)
    (right : List Row) (l : Row) : List Row :=
  match right.filter (meets first second l) with
  | [] => if keepUnmatched then [l.union (Row.nulls rightColumns)] else []
  | rs => rs.map l.union

/-- The right rows that no left row meets, with nulls on the left. -/
def unmatchedRight (first second : String) (leftColumns : List String) (left right : List Row) :
    List Row :=
  (right.filter fun r => !left.any fun l => meets first second l r).map
    (Row.nulls leftColumns).union

/-- Finds a column of a join among all columns. -/
def column (j : Join) (columns : List String) (base name : String) : Except StorageError String :=
  match Column.resolve? columns base name with
  | some c => .ok c
  | none => .error (.columnNotFound j.table name)

/-- Joins `left`, whose columns are `leftColumns`, with the rows of the joined table, whose columns
are `rightColumns`: the rows and their columns. -/
def rows (j : Join) (base : String) (left : List Row) (leftColumns rightColumns : List String)
    (right : List Row) : Except StorageError (List Row × List String) := do
  let qualified := j.qualifiedColumns rightColumns
  let columns := leftColumns ++ qualified
  let first ← j.column columns base j.first
  let second ← j.column columns base j.second
  let right := right.map (Row.qualify j.table)
  let matched := left.flatMap (leftRow (j.kind == .left) first second qualified right)
  let unmatched :=
    if j.kind = .right then unmatchedRight first second leftColumns left right else []
  return (matched ++ unmatched, columns)

end Tabular.Join
