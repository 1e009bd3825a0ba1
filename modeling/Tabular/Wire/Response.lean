import Tabular.Json.Printer
import Tabular.Json.Reader
import Tabular.Wire.Outcome

/-!
Requests of clients and responses to them as JSON, written and read.
-/

namespace Tabular

/-! ### Responses -/

/-- The word for a status. -/
def Status.word : Status → String
  | .ok => "OK"
  | .error => "ERROR"

/-- The status of a word. -/
def Status.ofWord? (word : String) : Option Status :=
  if word = "OK" then some .ok else if word = "ERROR" then some .error else none

/-- Reads a status: a word, or an object that has the word as its only name, with null. -/
def Status.ofJson? : Json → Option Status
  | .string word => Status.ofWord? word
  | .object [(word, .null)] => Status.ofWord? word
  | _ => none

/-- A failure in JSON. -/
def BatchFailure.toJson (f : BatchFailure) : Json :=
  .object [("statement", .ofNat f.statement), ("message", .string f.message)]

/-- Reads a failure. -/
def BatchFailure.ofJson? (v : Json) : Option BatchFailure :=
  match Json.fields? ["statement", "message"] v with
  | some [statement, message] => do
    return {
      statement := ← Json.required? Json.count? statement
      message := ← Json.required? Json.string? message }
  | _ => none

/-- Reads a failure or null. -/
def BatchFailure.nullableOfJson? : Json → Option (Option BatchFailure)
  | .null => some none
  | v => (BatchFailure.ofJson? v).map some

namespace BatchResponse

/-- A response in JSON. The failure has no member where there is none. -/
def toJson (r : BatchResponse) : Json :=
  .object
    ([("status", .string r.status.word), ("results", .array (r.results.map Outcome.toJson))]
      ++ (r.failure.map fun f => ("error", f.toJson)).toList)

/-- Reads a response. -/
def ofJson? (v : Json) : Option BatchResponse :=
  match Json.fields? ["status", "results", "error"] v with
  | some [status, results, failure] => do
    return {
      status := ← Json.required? Status.ofJson? status
      results := ← Json.required? (Json.list? Outcome.ofJson?) results
      failure := ← Json.defaulted? BatchFailure.nullableOfJson? none failure }
  | _ => none

/-- The text of a response. -/
def encode (r : BatchResponse) : String := r.toJson.compact

/-- The response that a text writes. -/
def decode? (text : String) : Option BatchResponse :=
  (Json.parse text).bind ofJson?

end BatchResponse

/-! ### Requests -/

/-- A request of a client: headers, and the statements to run if there are any. -/
structure ClientRequest where
  headers : Keyed String
  body : Option String
  deriving DecidableEq

namespace ClientRequest

/-- A request in JSON. -/
def toJson (r : ClientRequest) : Json :=
  .object
    [("headers", .object (r.headers.entries.map fun e => (e.1, .string e.2))),
      ("body", .ofOption r.body)]

/-- Reads a request. Headers and body may both be missing. -/
def ofJson? (v : Json) : Option ClientRequest :=
  match Json.fields? ["headers", "body"] v with
  | some [headers, body] => do
    return {
      headers := ← Json.defaulted? (Json.keyed? Json.string?) Keyed.empty headers
      body := ← Json.optionalString? body }
  | _ => none

/-- The text of a request. -/
def encode (r : ClientRequest) : String := r.toJson.compact

/-- The request that a text writes. -/
def decode? (text : String) : Option ClientRequest :=
  (Json.parse text).bind ofJson?

end ClientRequest

end Tabular
