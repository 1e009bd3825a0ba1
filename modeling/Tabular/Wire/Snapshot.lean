import Tabular.Json.Printer
import Tabular.Json.Reader
import Tabular.Wire.Outcome

/-!
Snapshots: databases as text, written and read.

A snapshot is an indented JSON object with the time of creation and the tables by their names; a
table has its primary key, its columns and its rows.
-/

namespace Tabular

namespace Table

/-- A table in JSON. -/
def toJson (t : Table) : Json :=
  .object
    [("primary_key", .ofOption t.primaryKey), ("columns", .ofStrings t.columns),
      ("rows", .array (t.rows.map Row.toJson))]

/-- Reads a table. -/
def ofJson? (v : Json) : Option Table :=
  match Json.fields? ["primary_key", "columns", "rows"] v with
  | some [primaryKey, columns, rows] => do
    return {
      primaryKey := ← Json.optionalString? primaryKey
      columns := ← Json.required? (Json.list? Json.string?) columns
      rows := ← Json.required? (Json.list? Row.ofJson?) rows }
  | _ => none

end Table

namespace Database

/-- A database in JSON. -/
def toJson (db : Database) : Json :=
  .object
    [("created_at", .string db.createdAt.text),
      ("tables", .object (db.tables.entries.map fun e => (e.1, e.2.toJson)))]

/-- Reads a database. -/
def ofJson? (v : Json) : Option Database :=
  match Json.fields? ["created_at", "tables"] v with
  | some [createdAt, tables] => do
    return {
      createdAt := ← Json.required? Timestamp.ofJson? createdAt
      tables := ← Json.required? (Json.keyed? Table.ofJson?) tables }
  | _ => none

/-- The snapshot of a database. -/
def snapshot (db : Database) : String := db.toJson.pretty

/-- The database that a snapshot holds. -/
def ofSnapshot? (text : String) : Option Database :=
  (Json.parse text).bind ofJson?

end Database

end Tabular
