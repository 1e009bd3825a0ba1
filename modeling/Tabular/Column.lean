/-!
Finding the column that a name means.

A name means the column of exactly that name; else, where it is qualified by the base table, the
column without the qualifier; else the one joined column that ends in the name. A name that fits no
column, or several joined ones, means none.
-/

namespace Tabular.Column

/-- A name without the qualifier of a table, if it has it. -/
def unqualified? (base name : String) : Option String :=
  let q := (base ++ ".").toList
  if q.isPrefixOf name.toList then some (String.ofList (name.toList.drop q.length)) else none

/-- Whether a column is a joined column of that name. -/
def endsIn (name column : String) : Bool :=
  ("." ++ name).toList.isSuffixOf column.toList

/-- The only joined column that ends in a name. -/
def joined? (columns : List String) (name : String) : Option String :=
  match columns.filter (endsIn name) with
  | [c] => some c
  | _ => none

/-- The column among `columns` that a name means in a query on the table `base`. -/
def resolve? (columns : List String) (base name : String) : Option String :=
  if name ∈ columns then some name
  else
    match (unqualified? base name).filter (· ∈ columns) with
    | some c => some c
    | none => joined? columns name

end Tabular.Column
