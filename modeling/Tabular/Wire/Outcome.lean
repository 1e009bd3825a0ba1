import Tabular.Json.Decode
import Tabular.Json.Readable
import Tabular.Outcome

/-!
Outcomes as JSON, written and read.

An outcome carries no tag: a message is a string, rows are an array of objects, a number of rows is
an object with that one member, descriptions are objects with their parts. Reading takes the first
of these five shapes that fits, in that order, so members of a later shape may stand beside those of
an earlier one.
-/

namespace Tabular

/-- A row in JSON: its columns in order. -/
def Row.toJson (row : Row) : Json :=
  .object (row.entries.map fun e => (e.1, .ofOption e.2))

/-- Reads a row. -/
def Row.ofJson? : Json → Option Row :=
  Json.keyed? Json.nullableString?

/-- A table description in JSON. -/
def TableDescription.toJson (d : TableDescription) : Json :=
  .object
    [("name", .string d.name), ("primary_key", .ofOption d.primaryKey),
      ("columns", .ofStrings d.columns), ("rows", .ofNat d.rows)]

/-- Reads a table description. -/
def TableDescription.ofJson? (v : Json) : Option TableDescription :=
  match Json.fields? ["name", "primary_key", "columns", "rows"] v with
  | some [name, primaryKey, columns, rows] => do
    return {
      name := ← Json.required? Json.string? name
      primaryKey := ← Json.optionalString? primaryKey
      columns := ← Json.required? (Json.list? Json.string?) columns
      rows := ← Json.required? Json.count? rows }
  | _ => none

/-- Reads a point in time. -/
def Timestamp.ofJson? (v : Json) : Option Timestamp := do
  Timestamp.ofText? (← v.string?)

/-- A database description in JSON. -/
def DatabaseDescription.toJson (d : DatabaseDescription) : Json :=
  .object
    [("database", .string d.database), ("created_at", .string d.createdAt.text),
      ("tables", .array (d.tables.map TableDescription.toJson))]

/-- Reads a database description. -/
def DatabaseDescription.ofJson? (v : Json) : Option DatabaseDescription :=
  match Json.fields? ["database", "created_at", "tables"] v with
  | some [database, createdAt, tables] => do
    return {
      database := ← Json.required? Json.string? database
      createdAt := ← Json.required? Timestamp.ofJson? createdAt
      tables := ← Json.required? (Json.list? TableDescription.ofJson?) tables }
  | _ => none

namespace Outcome

/-- An outcome in JSON. -/
def toJson : Outcome → Json
  | .message s => .string s
  | .rows l => .array (l.map Row.toJson)
  | .affected n => .object [("affected", .ofNat n)]
  | .table d => d.toJson
  | .database d => d.toJson

/-- Reads a number of rows: an object, and not an array, with that member. -/
def affectedOfJson? : Json → Option Nat
  | .object ms => (Json.onlyMember? ms "affected").bind (Json.required? Json.count?)
  | _ => none

/-- How deeply an outcome may be nested; it stands two levels deep in a response. -/
def maxDepth : Nat := 125

/-- Reads an outcome. Since the shape of an outcome is found by trial, the whole of it has to be
readable, members that are ignored included. -/
def ofJson? (v : Json) : Option Outcome :=
  if v.depth ≤ maxDepth ∧ v.isReadable = true then
    (v.string?.map .message)
      <|> ((Json.list? Row.ofJson? v).map .rows)
      <|> ((affectedOfJson? v).map .affected)
      <|> ((TableDescription.ofJson? v).map .table)
      <|> ((DatabaseDescription.ofJson? v).map .database)
  else none

end Outcome

end Tabular
