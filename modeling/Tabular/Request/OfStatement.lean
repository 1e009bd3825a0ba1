import Tabular.Request.Lists

/-!
Making requests of statements.

The functions of this module say which request a statement stands for, or why it stands for none.
They look at the statement alone: whether its tables and columns exist is found out by the storage.
-/

namespace Tabular

open Tabular.Text

namespace TableSpec

/-- `<column> AS PRIMARY_KEY`, with blanks around it. -/
def keyEntry : Reader String := do
  Token.gap
  let name ← Token.word
  Token.gap1
  let _ ← Token.keyword "AS"
  Token.gap1
  let _ ← Reader.textNoCase "PRIMARY_KEY".toList
  Token.gap
  return name

/-- The primary key that an entry of a parameter list declares, if it declares one. -/
def declaredKey? (entry : String) : Option String :=
  keyEntry.run? entry.toList

/-- Takes one entry of a parameter list into a specification: a primary key, of which there can be
only one, or a column. An empty name is left out. -/
def addEntry (spec : TableSpec) (entry : String) : Except Error TableSpec :=
  match declaredKey? entry with
  | some key =>
    if spec.primaryKey.isSome then .error .multiplePrimaryKeys
    else .ok { spec with primaryKey := some key }
  | none =>
    let column := Request.value entry.toList
    if column = "" then .ok spec else .ok { spec with columns := spec.columns ++ [column] }

/-- The table that a parameter list describes. -/
def ofParameters (name parameters : String) : Except Error TableSpec :=
  (Request.columnNames parameters).foldlM addEntry { name, primaryKey := none, columns := [] }

end TableSpec

/-- The insertion that a statement describes. Values in a clause may not be missing, and bare values
may not mention the keyword of the clause. -/
def InsertSpec.ofStatement (table : String) (columns : Option String) (values : Values) :
    Except Error InsertSpec := do
  let values ←
    match values with
    | .bare text =>
      if Token.containsKeyword text.toList "VALUES".toList then .error .missingValuesClause
      else .ok (Request.insertedValues text)
    | .clause text =>
      match Request.insertedValues text with
      | [] => .error .missingValuesClause
      | vs => .ok vs
  let columns := columns.map fun raw =>
    ((Request.columnNames raw).map fun c => Request.value c.toList).filter (· != "")
  return { table, columns, values }

/-- The condition that a filter describes. A filter without a value is none. -/
def Condition.ofFilter (filter : Filter) : Except Error Condition :=
  match filter.value with
  | none => .error .missingCondition
  | some raw =>
    .ok
      { target := filter.target
        operator := filter.operator
        operand :=
          if filter.operator.takesList then .list (Request.listedValues raw)
          else .scalar (Request.value raw.toList) }

/-- The condition of a statement that may not do without one. -/
def Condition.required (filter : Option Filter) : Except Error Condition :=
  match filter with
  | none => .error .missingCondition
  | some f => Condition.ofFilter f

/-- Whether a word asks for descending order. -/
def isDescending (direction : Option String) : Bool :=
  direction.any fun d => sameAscii d.toList "DESC".toList

/-- The query of a search. -/
def QuerySpec.ofSearch (s : Search) : Except Error QuerySpec := do
  let condition ← s.filter.mapM Condition.ofFilter
  return {
    table := s.table
    columns := if trim s.columns.toList = ['*'] then none else some (Request.columnNames s.columns)
    distinct := s.distinct
    joins := s.joins
    condition
    orderBy := s.orderBy
    ascending := !isDescending s.direction
    limit := s.limit
    offset := s.offset }

/-- The query of a deletion, which has to have a condition. -/
def QuerySpec.ofDelete (table : String) (filter : Option Filter) : Except Error QuerySpec := do
  let condition ← Condition.required filter
  return { table, condition := some condition }

/-- The query of an update, which has to have a condition. -/
def QuerySpec.ofUpdate (table assignments : String) (filter : Option Filter) :
    Except Error QuerySpec := do
  let assigned ← Request.assignments assignments
  let condition ← Condition.required filter
  return { table, condition := some condition, assignments := assigned }

/-- The request to the tables that a statement stands for; none for a statement about databases or
one that only describes. -/
def Request.ofStatement? : Statement → Except Error (Option Request)
  | .create .table name (some parameters) => do
    return some (.createTable (← TableSpec.ofParameters name parameters))
  | .insert table columns values => do
    return some (.insert (← InsertSpec.ofStatement table columns values))
  | .find search => do return some (.find (← QuerySpec.ofSearch search))
  | .delete table filter => do return some (.delete (← QuerySpec.ofDelete table filter))
  | .update table assignments filter => do
    return some (.update (← QuerySpec.ofUpdate table assignments filter))
  | _ => .ok none

end Tabular
