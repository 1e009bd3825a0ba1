import Tabular.Encode.Statement
import Tabular.Request.Basic

/-!
Requests as JSON.

Every part of a request has its member, null or an empty array where the part is missing. The
columns and the values that an update assigns stand in two arrays side by side.
-/

namespace Tabular

/-- A list of texts that may be missing. -/
def Json.ofStringsOption : Option (List String) → Json
  | some l => .ofStrings l
  | none => .null

/-- A table specification in JSON. -/
def TableSpec.toJson (s : TableSpec) : Json :=
  .object
    [("name", .string s.name), ("primary_key", .ofOption s.primaryKey),
      ("columns", .ofStrings s.columns)]

/-- An insertion in JSON. -/
def InsertSpec.toJson (s : InsertSpec) : Json :=
  .object
    [("table", .string s.table), ("columns", .ofStringsOption s.columns),
      ("values", .ofStrings s.values)]

/-- What a column is compared with, in JSON. -/
def Operand.toJson : Operand → Json
  | .scalar v => .string v
  | .list vs => .ofStrings vs

/-- A condition in JSON. -/
def Condition.toJson (c : Condition) : Json :=
  .object
    [("target", c.target.toJson), ("operator", c.operator.toJson), ("value", c.operand.toJson)]

/-- A condition that may be missing. -/
def Condition.optionToJson : Option Condition → Json
  | some c => c.toJson
  | none => .null

/-- A query in JSON. -/
def QuerySpec.toJson (q : QuerySpec) : Json :=
  .object
    [("table", .string q.table), ("columns", .ofStringsOption q.columns),
      ("distinct", .bool q.distinct), ("joins", .array (q.joins.map Join.toJson)),
      ("condition", Condition.optionToJson q.condition), ("order_by", .ofOption q.orderBy),
      ("ascending", .bool q.ascending), ("limit", .ofCount q.limit), ("offset", .ofCount q.offset),
      ("set", .ofStrings (q.assignments.map (·.column))),
      ("set_values", .ofStrings (q.assignments.map (·.value)))]

/-- A request in JSON. -/
def Request.toJson : Request → Json
  | .createTable s => s.toJson
  | .insert s => s.toJson
  | .find q => q.toJson
  | .delete q => q.toJson
  | .update q => q.toJson

end Tabular
