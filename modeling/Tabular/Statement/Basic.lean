/-!
Statements.

A statement is one command of a batch. `Statement` has one constructor per verb and holds what the
grammar captured, texts still as they were written: quotes, escapes and lists are resolved later,
when a request is made of it (`Tabular.Request`).
-/

namespace Tabular

/-- The verb that a statement starts with. -/
inductive Verb where
  | init | create | insert | find | describe | show | drop | delete | update
  deriving DecidableEq, Repr

/-- The keyword that a verb is shown by. -/
def Verb.keyword : Verb → String
  | .init => "INIT"
  | .create => "CREATE"
  | .insert => "INSERT"
  | .find => "FIND"
  | .describe => "DESCRIBE"
  | .show => "SHOW"
  | .drop => "DROP"
  | .delete => "DELETE"
  | .update => "UPDATE"

/-- What a statement creates, describes or drops. -/
inductive ElementKind where
  | database | table
  deriving DecidableEq, Repr

/-- The keyword that a kind of element is shown by. -/
def ElementKind.keyword : ElementKind → String
  | .database => "DATABASE"
  | .table => "TABLE"

/-- Comparison operators. -/
inductive Operator where
  | eq | ne | lt | lte | gt | gte | like | notLike | isIn | notIn
  deriving DecidableEq, Repr

/-- The way an operator is written. -/
def Operator.symbol : Operator → String
  | .eq => "="
  | .ne => "!="
  | .lt => "<"
  | .lte => "<="
  | .gt => ">"
  | .gte => ">="
  | .like => "LIKE"
  | .notLike => "NOT LIKE"
  | .isIn => "IN"
  | .notIn => "NOT IN"

/-- Whether an operator compares with a list of values. -/
def Operator.takesList : Operator → Bool
  | .isIn | .notIn => true
  | _ => false

/-- What the left side of a condition names. -/
inductive Target where
  /-- Whatever column is the primary key of the table. -/
  | primaryKey
  /-- A column by its name. -/
  | field (name : String)
  deriving DecidableEq, Repr

/-- Which unmatched rows a join keeps. -/
inductive JoinKind where
  | inner | left | right
  deriving DecidableEq, Repr

/-- An equality join with a second table. -/
structure Join where
  kind : JoinKind
  /-- The table that is joined. -/
  table : String
  /-- The column on the left of the equation. -/
  first : String
  /-- The column on the right of the equation. -/
  second : String
  deriving DecidableEq, Repr

/-- A condition as it was written. -/
structure Filter where
  target : Target
  operator : Operator
  /-- The text of the value, if there is one. -/
  value : Option String
  deriving DecidableEq, Repr

/-- The values of an insertion as they were written. -/
inductive Values where
  /-- The inside of a parenthesized list after the keyword. -/
  | clause (text : String)
  /-- The text that follows the table's name. -/
  | bare (text : String)
  deriving DecidableEq, Repr

/-- A search as it was written. -/
structure Search where
  distinct : Bool
  /-- A star or a list of columns. -/
  columns : String
  table : String
  joins : List Join
  filter : Option Filter
  orderBy : Option String
  /-- The word for the direction, if there is one. -/
  direction : Option String
  limit : Option Nat
  offset : Option Nat
  deriving DecidableEq, Repr

/-- A statement, with the texts that its grammar captured. -/
inductive Statement where
  /-- Selects a database. -/
  | init (database : String)
  /-- Creates a database or a table. -/
  | create (kind : ElementKind) (name : String) (parameters : Option String)
  /-- Adds a row. -/
  | insert (table : String) (columns : Option String) (values : Values)
  /-- Looks rows up. -/
  | find (search : Search)
  /-- Describes a database or a table. -/
  | describe (kind : ElementKind) (name : Option String)
  /-- Lists databases. -/
  | show (pattern : Option String)
  /-- Drops a database or a table. -/
  | drop (kind : ElementKind) (name : Option String)
  /-- Removes rows. -/
  | delete (table : String) (filter : Option Filter)
  /-- Assigns columns of rows. -/
  | update (table : String) (assignments : String) (filter : Option Filter)
  deriving DecidableEq, Repr

/-- The verb of a statement. -/
def Statement.verb : Statement → Verb
  | .init .. => .init
  | .create .. => .create
  | .insert .. => .insert
  | .find .. => .find
  | .describe .. => .describe
  | .show .. => .show
  | .drop .. => .drop
  | .delete .. => .delete
  | .update .. => .update

end Tabular
