import Tabular.Statement.Token

/-!
The grammar of each verb.

A grammar reads one statement from the front of a text and captures its parts. Blanks between words
are required, blanks around parentheses, commas and signs are optional.
-/

namespace Tabular.Grammar

open Tabular.Text Tabular.Token

/-- The text of a captured part without surrounding white space. -/
def trimmed (s : String) : String :=
  String.ofList (trim s.toList)

/-- What is left, if it holds more than white space. -/
def nonBlankRemainder : Reader String :=
  Reader.accepting Reader.remainder fun s => if trim s = [] then none else some (String.ofList s)

/-- A part that comes after at least one blank. -/
def spaced {α : Type} (p : Reader α) : Reader α := do
  gap1
  p

/-- `INIT <database>` -/
def init : Reader Statement := do
  let _ ← keyword "INIT"
  gap1
  return .init (← databaseName)

/-- The parameters of a creation: a group, or whatever follows the name. -/
def parameters : Reader String :=
  (do gap; parenthesizedInner) <|> spaced nonBlankRemainder

/-- `CREATE (DATABASE|TABLE) <name> [<parameters>]`. Blank parameters count as none. -/
def create : Reader Statement := do
  let _ ← keyword "CREATE"
  gap1
  let kind ← elementKind
  gap1
  let name ← elementName kind
  let params ← Reader.optional parameters
  return .create kind name ((params.map trimmed).filter (· != ""))

/-- `(<columns>) VALUES (<values>)` -/
def namedValues : Reader (Option String × Values) := do
  gap
  let columns ← parenthesizedInner
  gap
  let _ ← keyword "VALUES"
  gap
  let values ← parenthesizedInner
  return (some columns, .clause values)

/-- `VALUES (<values>)` -/
def clauseValues : Reader (Option String × Values) := do
  gap1
  let _ ← keyword "VALUES"
  gap
  let values ← parenthesizedInner
  return (none, .clause values)

/-- Values that simply follow the name of the table. -/
def bareValues : Reader (Option String × Values) := do
  let values ← spaced nonBlankRemainder
  return (none, .bare (trimmed values))

/-- `INSERT [INTO] <table> …` -/
def insert : Reader Statement := do
  let _ ← keyword "INSERT"
  gap1
  let _ ← Reader.optional (do let _ ← keyword "INTO"; gap1)
  let table ← identifier
  let (columns, values) ← namedValues <|> clauseValues <|> bareValues
  return .insert table (columns.map trimmed) values

/-- A star or a list of columns, as one text. -/
def columnList : Reader String :=
  (do return String.ofList (← Reader.taken (Reader.char '*'))) <|>
  (do return String.ofList (← Reader.taken (Reader.sepBy1 identifier comma)))

/-- The word in front of `JOIN`, with the blanks after it. -/
def joinKind : Reader JoinKind := do
  let kind ←
    (do let _ ← keyword "INNER"; return JoinKind.inner) <|>
    (do let _ ← keyword "LEFT"; return JoinKind.left) <|>
    (do let _ ← keyword "RIGHT"; return JoinKind.right)
  gap1
  return kind

/-- `[INNER|LEFT|RIGHT] JOIN <table> ON <a> = <b>` -/
def join : Reader Join := do
  let kind ← Reader.optional joinKind
  let _ ← keyword "JOIN"
  gap1
  let table ← identifier
  gap1
  let _ ← keyword "ON"
  gap1
  let first ← identifier
  gap
  let _ ← Reader.char '='
  gap
  let second ← identifier
  return { kind := kind.getD .inner, table, first, second }

/-- `WHERE <target> <operator> [<value>]` -/
def filter : Reader Filter := do
  let _ ← keyword "WHERE"
  gap1
  let target ← target
  gap
  let operator ← operator
  let value ← Reader.optional (do gap; conditionValue)
  return { target, operator, value }

/-- `ORDER BY <field> [ASC|DESC]` -/
def orderBy : Reader (String × Option String) := do
  let _ ← keyword "ORDER"
  gap1
  let _ ← keyword "BY"
  gap1
  let field ← identifier
  let direction ← Reader.optional (spaced (keyword "ASC" <|> keyword "DESC"))
  return (field, direction)

/-- A keyword and a count after it. -/
def counted (word : String) : Reader Nat := do
  gap1
  let _ ← keyword word
  gap1
  count

/-- `FIND [DISTINCT] <columns> FROM <table> [joins] [WHERE] [ORDER BY] [LIMIT] [OFFSET]` -/
def find : Reader Statement := do
  let _ ← keyword "FIND"
  let distinct ← Reader.optional (spaced (keyword "DISTINCT"))
  gap1
  let columns ← columnList
  gap1
  let _ ← keyword "FROM"
  gap1
  let table ← identifier
  let joins ← Reader.many (spaced join)
  let filter ← Reader.optional (spaced filter)
  let order ← Reader.optional (spaced orderBy)
  let limit ← Reader.optional (counted "LIMIT")
  let offset ← Reader.optional (counted "OFFSET")
  return .find
    { distinct := distinct.isSome, columns, table, joins, filter
      orderBy := order.map (·.1), direction := order.bind (·.2), limit, offset }

/-- `(DATABASE|TABLE) [<name>]` -/
def element : Reader (ElementKind × Option String) := do
  let kind ← elementKind
  let name ← Reader.optional (spaced (elementName kind))
  return (kind, name)

/-- `DESCRIBE|LS (DATABASE|TABLE) [<name>]` -/
def describe : Reader Statement := do
  let _ ← keyword "DESCRIBE" <|> keyword "LS"
  gap1
  let (kind, name) ← element
  return .describe kind name

/-- `DROP (DATABASE|TABLE) [<name>]` -/
def drop : Reader Statement := do
  let _ ← keyword "DROP"
  gap1
  let (kind, name) ← element
  return .drop kind name

/-- `SHOW [DATABASES|DBS] [LIKE <pattern>]` -/
def «show» : Reader Statement := do
  let _ ← keyword "SHOW"
  let _ ← Reader.optional (spaced (keyword "DATABASES" <|> keyword "DBS"))
  let pattern ← Reader.optional (do
    gap1
    let _ ← keyword "LIKE"
    gap1
    conditionValue)
  return .show pattern

/-- `DELETE [FROM] <table> [WHERE …]` -/
def delete : Reader Statement := do
  let _ ← keyword "DELETE"
  gap1
  let _ ← Reader.optional (do let _ ← keyword "FROM"; gap1)
  let table ← identifier
  let filter ← Reader.optional (spaced filter)
  return .delete table filter

/-- `UPDATE <table> SET <assignments> [WHERE …]`. The assignments run up to the keyword `WHERE`
outside literals and may not be empty. -/
def update : Reader Statement := do
  let _ ← keyword "UPDATE"
  gap1
  let table ← identifier
  gap1
  let _ ← keyword "SET"
  gap1
  let assignments ← Reader.accepting (upToKeyword "WHERE") fun s => if s = "" then none else some s
  let filter ← Reader.optional filter
  return .update table assignments filter

/-- The grammar of a verb. -/
def ofVerb : Verb → Reader Statement
  | .init => init
  | .create => create
  | .insert => insert
  | .find => find
  | .describe => describe
  | .show => «show»
  | .drop => drop
  | .delete => delete
  | .update => update

end Tabular.Grammar
