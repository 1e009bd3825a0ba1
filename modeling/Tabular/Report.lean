import Tabular.Outcome

/-!
Reports: outcomes in lines for people.

Rows are drawn as a table under the columns of the first row, every column as wide as its widest
cell; the other outcomes have one line or one line per fact. `BatchResponse.reportLines` draws every
outcome of a batch, `BatchFailure.reportLine` tells which statement ended it.
-/

namespace Tabular

namespace Report

/-- The mark of a line about something that succeeded. -/
def success (text : String) : String := "✓ " ++ text

/-! ### Rows -/

/-- The text of a cell; a null has a word of its own. -/
def cellText (row : Row) (column : String) : String :=
  (row.value? column).getD "NULL"

/-- A text with blanks after it up to a width in characters. -/
def padded (width : Nat) (text : String) : String :=
  text ++ String.ofList (List.replicate (width - text.length) ' ')

/-- The width of a column: the characters of its widest cell, or the bytes of its name where these
are more. -/
def columnWidth (rows : List Row) (column : String) : Nat :=
  rows.foldl (fun width row => max width (cellText row column).length) column.utf8ByteSize

/-- Cells side by side, each as wide as its column. -/
def tableLine (widths : List Nat) (cells : List String) : String :=
  String.intercalate " │ " (List.zipWith padded widths cells)

/-- The line between the names of the columns and the cells. -/
def ruleLine (widths : List Nat) : String :=
  String.intercalate "─┼─" (widths.map fun width => String.ofList (List.replicate width '─'))

/-- Rows as a table, with their number below it. -/
def rowsLines : List Row → List String
  | [] => ["(no results)"]
  | first :: others =>
    let rows := first :: others
    let columns := first.keys
    let widths := columns.map (columnWidth rows)
    [tableLine widths columns, ruleLine widths]
      ++ rows.map (fun row => tableLine widths (columns.map (cellText row)))
      ++ ["", toString rows.length ++ " row(s) returned"]

/-! ### Descriptions -/

/-- The facts about a table. -/
def tableLines (d : TableDescription) : List String :=
  ["Table: " ++ d.name]
    ++ (d.primaryKey.map fun key => "  Primary key: " ++ key).toList
    ++ ["  Columns: " ++ String.intercalate ", " d.columns, "  Rows: " ++ toString d.rows]

/-- The line for a table of a database. -/
def memberLine (d : TableDescription) : String :=
  "  • " ++ d.name ++ " (pk " ++ d.primaryKey.getD "-" ++ ", " ++ toString d.rows ++ " row(s))"

/-- The facts about a database. -/
def databaseLines (d : DatabaseDescription) : List String :=
  ["Database: " ++ d.database, "  Created: " ++ d.createdAt.textWithOffset]
    ++ (if d.tables = [] then ["  (no tables)"] else d.tables.map memberLine)

end Report

/-- An outcome in lines. -/
def Outcome.reportLines : Outcome → List String
  | .message text => [Report.success text]
  | .rows l => Report.rowsLines l
  | .affected count => [Report.success (toString count ++ " row(s) affected")]
  | .table d => Report.tableLines d
  | .database d => Report.databaseLines d

/-- Every outcome of a batch in lines. -/
def BatchResponse.reportLines (r : BatchResponse) : List String :=
  r.results.flatMap Outcome.reportLines

/-- The line for the statement that ended a batch; people count statements from one. -/
def BatchFailure.reportLine (f : BatchFailure) : String :=
  "✗ statement " ++ toString (f.statement + 1) ++ ": " ++ f.message

end Tabular
