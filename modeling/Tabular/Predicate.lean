import Tabular.Cell
import Tabular.Error
import Tabular.Like
import Tabular.Request.Basic
import Tabular.Row

/-!
Testing rows.

A condition on a column becomes a `Test` on its values. A null, or a column that a row lacks,
satisfies no test, a negated one neither.
-/

namespace Tabular

/-- A test on a value. -/
inductive Test where
  /-- Whether the value is in the order that an operator asks for. -/
  | compare (operator : Operator) (value : String)
  /-- Whether a pattern covers the value. -/
  | like (negated : Bool) (pattern : String)
  /-- Whether the value is in a list. -/
  | member (negated : Bool) (values : List String)
  deriving DecidableEq, Repr

/-- Whether an operator accepts a value that stands in an order to another one. -/
def Operator.accepts : Operator → Ordering → Bool
  | .eq, o => o == .eq
  | .ne, o => o != .eq
  | .lt, o => o == .lt
  | .lte, o => o != .gt
  | .gt, o => o == .gt
  | .gte, o => o != .lt
  | _, _ => false

namespace Test

variable [PatternCompiler]

/-- The test of a pattern, which has to be compiled. -/
def ofPattern (negated : Bool) (pattern : String) : Except StorageError Test :=
  match PatternCompiler.refusal? pattern with
  | none => .ok (.like negated pattern)
  | some reason => .error (.invalidPattern reason)

/-- The test of an operator and what it compares with. A list goes with the operators that take a
list, a single value with the others. -/
def of (operator : Operator) (operand : Operand) : Except StorageError Test :=
  match operator, operand with
  | .isIn, .list values => .ok (.member false values)
  | .notIn, .list values => .ok (.member true values)
  | .isIn, .scalar _ => .error (.operand .isIn)
  | .notIn, .scalar _ => .error (.operand .notIn)
  | op, .list _ => .error (.operand op)
  | .like, .scalar pattern => ofPattern false pattern
  | .notLike, .scalar pattern => ofPattern true pattern
  | op, .scalar value => .ok (.compare op value)

/-- Whether a value passes. -/
def holds : Test → String → Bool
  | .compare op value, cell => op.accepts (Cell.compareValues cell value)
  | .like negated pattern, cell => Pattern.matches pattern cell != negated
  | .member negated values, cell => values.any (Cell.sameValue cell) != negated

end Test

/-- A test on one column of a row. -/
structure Predicate where
  column : String
  test : Test
  deriving DecidableEq, Repr

namespace Predicate

/-- Whether a row passes. -/
def holds (p : Predicate) (row : Row) : Bool :=
  match row.value? p.column with
  | some cell => p.test.holds cell
  | none => false

/-- Whether a row passes a predicate, if there is one. -/
def optionHolds (p : Option Predicate) (row : Row) : Bool :=
  p.all (·.holds row)

end Predicate

end Tabular
