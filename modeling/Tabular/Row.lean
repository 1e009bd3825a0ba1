import Tabular.Keyed

/-!
Rows.

A row maps column names to cells; a cell is a text or null. Rows are maps in ascending order of
columns, so two rows with the same cells are one row.
-/

namespace Tabular

/-- One row: a cell for each of its columns. -/
abbrev Row := Keyed (Option String)

namespace Row

/-- The value of a column; none for a null and for a column that the row lacks. -/
def value? (row : Row) (column : String) : Option String :=
  (row.get? column).join

/-- A row of nulls. -/
def nulls (columns : List String) : Row :=
  Keyed.ofList (columns.map fun c => (c, none))

/-- The name of a column of a joined table. -/
def qualifiedName (table column : String) : String :=
  table ++ "." ++ column

/-- A row under the qualified names of its table. -/
def qualify (table : String) (row : Row) : Row :=
  Keyed.ofList (row.entries.map fun e => (qualifiedName table e.1, e.2))

end Row

end Tabular
