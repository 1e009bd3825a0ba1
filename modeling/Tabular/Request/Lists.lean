import Tabular.Error
import Tabular.Request.Basic

/-!
Resolving the texts of a statement: values, value lists, column lists and assignments.

Commas separate items. Inside a quoted literal they do not, except in a column list, which is cut at
every comma.
-/

namespace Tabular.Request

open Tabular.Text

/-- The value that a text writes. -/
def value (s : List Char) : String :=
  String.ofList (clean s)

/-- The names of a column list, without blanks around them. -/
def columnNames (raw : String) : List String :=
  (splitAll ',' raw.toList).map fun s => String.ofList (trim s)

/-- The values of an insertion. Items of white space alone are left out. -/
def insertedValues (raw : String) : List String :=
  ((splitOutside ',' (stripParens raw.toList)).filter fun s => trim s ≠ []).map value

/-- The values of a list that a column is compared with. Every item counts, blank ones too. -/
def listedValues (raw : String) : List String :=
  (splitOutside ',' (stripParens raw.toList)).map value

/-- One assignment: a name, an equals sign and a value. -/
def assignment (s : List Char) : Except Error Assignment :=
  match splitOnce? '=' s with
  | none => .error (.assignment (String.ofList (trim s)))
  | some (name, raw) =>
    let field := trim name
    if field = [] ∨ field.all isWordChar = false then
      .error (.assignedField (String.ofList field))
    else .ok { column := String.ofList field, value := value raw }

/-- A list of assignments; the first one that is malformed decides the error. -/
def assignments (raw : String) : Except Error (List Assignment) :=
  (splitOutside ',' raw.toList).mapM assignment

end Tabular.Request
