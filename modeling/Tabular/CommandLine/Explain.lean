import Tabular.CommandLine.Output
import Tabular.Encode.Request
import Tabular.Json.Printer
import Tabular.Request.OfStatement

/-!
Explaining a statement: how it is read, and the request to the tables that it becomes.

Nothing is run. A text that is no statement, and a statement that makes no request, are complained
about in place of the part that is missing.
-/

namespace Tabular.CommandLine

/-- The lines of an indented value, two blanks further in. -/
def indentedLines (v : Json) : List String :=
  (Text.splitAll '\n' v.pretty.toList).map fun line => "  " ++ String.ofList line

/-- How a statement is read. -/
def structureLines (statement : Statement) : List String :=
  ["Parsed Structure:", "  Verb: " ++ statement.verb.keyword] ++ indentedLines statement.toJson

/-- The request that a statement becomes, with the members of its objects in order. -/
def requestLines (request : Request) : List String :=
  ["", "Storage Request:"] ++ indentedLines request.toJson.sortMembers

/-- The heading of an explanation. -/
def heading (raw : String) : Output :=
  Output.lines ["Nue Statement Explanation", "", "Statement: " ++ raw, ""]

/-- Explains a statement: the exit code and the output. -/
def explain (raw : String) : Nat × Output :=
  match Statement.parse raw with
  | .error cause =>
    match (Error.parse cause).panic? with
    | some panic => (panicCode, heading raw ++ panicked panic)
    | none => (0, heading raw ++ Output.complaint ("Parse Error: " ++ cause.message))
  | .ok statement =>
    let request :=
      match Request.ofStatement? statement with
      | .ok (some request) => Output.lines (requestLines request)
      | .ok none => Output.empty
      | .error err => Output.complaint ("Validation Error: " ++ err.message)
    (0, heading raw ++ Output.lines (structureLines statement) ++ request)

end Tabular.CommandLine
