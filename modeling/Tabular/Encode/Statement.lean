import Tabular.Json.Basic
import Tabular.Statement.Basic

/-!
Statements as JSON.

A statement is an object with one member, named for its kind; the member's value has the captured
parts in a fixed order, with null for a part that is missing.
-/

namespace Tabular

/-- A count that may be missing. -/
def Json.ofCount : Option Nat → Json
  | some n => .ofNat n
  | none => .null

/-- The name of a kind of element in JSON. -/
def ElementKind.toJson : ElementKind → Json
  | .database => .string "Database"
  | .table => .string "Table"

/-- The name of an operator in JSON. -/
def Operator.name : Operator → String
  | .eq => "Eq"
  | .ne => "Ne"
  | .lt => "Lt"
  | .lte => "Lte"
  | .gt => "Gt"
  | .gte => "Gte"
  | .like => "Like"
  | .notLike => "NotLike"
  | .isIn => "In"
  | .notIn => "NotIn"

/-- An operator in JSON. -/
def Operator.toJson (op : Operator) : Json := .string op.name

/-- The left side of a condition in JSON. -/
def Target.toJson : Target → Json
  | .primaryKey => .string "PrimaryKey"
  | .field name => .object [("Field", .string name)]

/-- The name of a kind of join in JSON. -/
def JoinKind.name : JoinKind → String
  | .inner => "Inner"
  | .left => "Left"
  | .right => "Right"

/-- A join in JSON. -/
def Join.toJson (j : Join) : Json :=
  .object
    [("kind", .string j.kind.name), ("reference_table", .string j.table),
      ("first_column", .string j.first), ("second_column", .string j.second)]

/-- A filter in JSON. -/
def Filter.toJson (f : Filter) : Json :=
  .object
    [("target", f.target.toJson), ("operator", f.operator.toJson), ("value", .ofOption f.value)]

/-- A filter that may be missing. -/
def Filter.optionToJson : Option Filter → Json
  | some f => f.toJson
  | none => .null

/-- The values of an insertion in JSON. -/
def Values.toJson : Values → Json
  | .clause text => .object [("Clause", .string text)]
  | .bare text => .object [("Bare", .string text)]

/-- A search in JSON. -/
def Search.toJson (s : Search) : Json :=
  .object
    [("distinct", .bool s.distinct), ("columns", .string s.columns), ("table", .string s.table),
      ("joins", .array (s.joins.map Join.toJson)), ("filter", Filter.optionToJson s.filter),
      ("order_by", .ofOption s.orderBy), ("direction", .ofOption s.direction),
      ("limit", .ofCount s.limit), ("offset", .ofCount s.offset)]

/-- A kind of element and a name that may be missing. -/
def elementToJson (kind : ElementKind) (name : Option String) : Json :=
  .object [("kind", kind.toJson), ("name", .ofOption name)]

/-- A statement in JSON. -/
def Statement.toJson : Statement → Json
  | .init database => .object [("Init", .object [("database", .string database)])]
  | .create kind name parameters =>
    .object
      [("Create", .object
        [("kind", kind.toJson), ("name", .string name), ("parameters", .ofOption parameters)])]
  | .insert table columns values =>
    .object
      [("Insert", .object
        [("table", .string table), ("columns", .ofOption columns), ("values", values.toJson)])]
  | .find search => .object [("Find", search.toJson)]
  | .describe kind name => .object [("Describe", elementToJson kind name)]
  | .show pattern => .object [("Show", .object [("pattern", .ofOption pattern)])]
  | .drop kind name => .object [("Drop", elementToJson kind name)]
  | .delete table filter =>
    .object
      [("Delete", .object [("table", .string table), ("filter", Filter.optionToJson filter)])]
  | .update table assignments filter =>
    .object
      [("Update", .object
        [("table", .string table), ("set_clause", .string assignments),
          ("filter", Filter.optionToJson filter)])]

end Tabular
