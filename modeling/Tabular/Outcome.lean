import Tabular.Database

/-!
The results of statements and of batches.

A statement that succeeds has an `Outcome`. A batch has the outcomes of its statements up to the
first one that fails, and then tells which one failed and why.
-/

namespace Tabular

/-- The result of one statement. -/
inductive Outcome where
  | message (text : String)
  | rows (rows : List Row)
  | affected (count : Nat)
  | table (description : TableDescription)
  | database (description : DatabaseDescription)
  deriving DecidableEq

/-- Whether every statement of a batch succeeded. -/
inductive Status where
  | ok | error
  deriving DecidableEq, Repr

/-- The statement that ended a batch. -/
structure BatchFailure where
  /-- The place of the statement in the batch, counted from zero. -/
  statement : Nat
  message : String
  deriving DecidableEq, Repr

/-- The result of a batch. -/
structure BatchResponse where
  status : Status
  /-- The outcomes of the statements before the failing one. -/
  results : List Outcome
  failure : Option BatchFailure
  deriving DecidableEq

namespace BatchResponse

/-- Every statement succeeded. -/
def ok (results : List Outcome) : BatchResponse :=
  { status := .ok, results, failure := none }

/-- A statement failed. -/
def failed (results : List Outcome) (statement : Nat) (message : String) : BatchResponse :=
  { status := .error, results, failure := some { statement, message } }

/-- Whether every statement succeeded. -/
def isOk (r : BatchResponse) : Bool := r.status == .ok

end BatchResponse

end Tabular
