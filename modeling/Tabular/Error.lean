import Tabular.Statement.Parse

/-!
What can go wrong, and how it is told.

`StorageError` lists the causes that lie in the tables, the databases and their files, `Error` those
of a whole statement. Each has one function `message` with the wording. Two of the errors are
panics: no response tells them, they end what the statement was part of.
-/

namespace Tabular

/-- Why the file system refuses an operation. -/
inductive IoKind where
  | notFound
  | permissionDenied
  | alreadyExists
  | isADirectory
  | notADirectory
  | invalidFilename
  | invalidInput
  | invalidData
  | unexpectedEof
  | networkUnreachable
  deriving DecidableEq, Repr

/-- The wording of a refusal by the file system. -/
def IoKind.message : IoKind → String
  | .notFound => "No such file or directory (os error 2)"
  | .permissionDenied => "Permission denied (os error 13)"
  | .alreadyExists => "File exists (os error 17)"
  | .isADirectory => "Is a directory (os error 21)"
  | .notADirectory => "Not a directory (os error 20)"
  | .invalidFilename => "File name too long (os error 36)"
  | .invalidInput => "file name contained an unexpected NUL byte"
  | .invalidData => "invalid data"
  | .unexpectedEof => "early eof"
  | .networkUnreachable => "Network is unreachable (os error 101)"

/-- Why the storage refuses a request. -/
inductive StorageError where
  | databaseExists (name : String)
  | databaseNotFound (name : String)
  | tableExists (name : String)
  | tableNotFound (name : String)
  | columnNotFound (table column : String)
  | noPrimaryKey (table : String)
  | duplicateKey (column value : String)
  | missingKey (column : String)
  | valueCount (expected found : Nat)
  /-- The operator needs a list where a single value is given, or the other way round. -/
  | operand (operator : Operator)
  /-- A pattern that cannot be compiled. -/
  | invalidPattern (reason : String)
  /-- A sort gave up, because the comparison of the cells contradicts itself. This is a panic. -/
  | disorder
  /-- A snapshot does not hold a database. -/
  | snapshot
  | io (kind : IoKind)
  deriving DecidableEq, Repr

/-- What an operator has to be given. -/
def Operator.expects (op : Operator) : String :=
  if op.takesList then "a list of values" else "a single value"

/-- The wording of a storage error. -/
def StorageError.message : StorageError → String
  | .databaseExists name => "Database " ++ name ++ " already exists."
  | .databaseNotFound name => "Database " ++ name ++ " doesn't exist."
  | .tableExists name => "Table " ++ name ++ " already exists."
  | .tableNotFound name => "Table " ++ name ++ " doesn't exist."
  | .columnNotFound table column =>
    "Column " ++ column ++ " doesn't exist in table " ++ table ++ "."
  | .noPrimaryKey table => "Table " ++ table ++ " has no primary key."
  | .duplicateKey column value =>
    "Duplicate value '" ++ value ++ "' for primary key " ++ column ++ "."
  | .missingKey column => "Primary key " ++ column ++ " requires a value."
  | .valueCount expected found =>
    "Expected " ++ toString expected ++ " values, found " ++ toString found ++ "."
  | .operand op => "Operator " ++ op.symbol ++ " expects " ++ op.expects ++ "."
  | .invalidPattern reason => "Invalid LIKE pattern: " ++ reason
  | .disorder => "user-provided comparison function does not correctly implement a total order"
  | .snapshot => "Snapshot error: the file does not hold a database"
  | .io kind => "IO error: " ++ kind.message

/-- The wording of a parse error: where the text stops being a statement, and at what. -/
def ParseError.message : ParseError → String
  | .empty => "Syntax error at position 0: Empty statement"
  | .unknownVerb word =>
    "Invalid command action: '" ++ word ++ "'. Expected: INIT, CREATE, INSERT, FIND, DESCRIBE, "
      ++ "LS, SHOW, DROP, DELETE or UPDATE"
  | .noMatch verb position near =>
    "Syntax error at position " ++ toString position ++ ": Invalid " ++ verb.keyword
      ++ " statement near '" ++ near ++ "'"
  | .splitCharacter => "byte index is not a char boundary"

/-- The part that a statement lacks. -/
inductive Missing where
  /-- The columns of a new table. -/
  | tableColumns
  /-- What to describe. -/
  | described
  /-- Which database to drop. -/
  | droppedDatabase
  /-- Which table to drop. -/
  | droppedTable
  deriving DecidableEq, Repr

/-- The wording for a missing part. -/
def Missing.message : Missing → String
  | .tableColumns => "No parameters specified for create table command."
  | .described => "No parameter specified for describe command."
  | .droppedDatabase => "No database specified for drop command."
  | .droppedTable => "No table specified for drop command."

/-- Why a statement fails. -/
inductive Error where
  | parse (cause : ParseError)
  /-- An assignment without an equals sign. -/
  | assignment (text : String)
  /-- An assignment to something that is no name. -/
  | assignedField (name : String)
  | multiplePrimaryKeys
  | missingValuesClause
  | missingCondition
  | missing (part : Missing)
  /-- Parameters for a new database. -/
  | databaseParameters
  | noActiveDatabase
  /-- The database to select does not exist. -/
  | unknownDatabase (name : String)
  | storage (cause : StorageError)
  deriving DecidableEq, Repr

/-- The wording of an error. -/
def Error.message : Error → String
  | .parse cause => cause.message
  | .assignment text => "Syntax error at position 0: Malformed SET assignment: '" ++ text ++ "'"
  | .assignedField name => "Syntax error at position 0: Invalid SET field: '" ++ name ++ "'"
  | .multiplePrimaryKeys => "Unable to specify more than one primary key by table."
  | .missingValuesClause => "INSERT command requires a VALUES clause with parameters."
  | .missingCondition => "You must specify a condition value for WHERE clause."
  | .missing part => part.message
  | .databaseParameters => "Unexpected parameters on \"CREATE DATABASE\" instruction."
  | .noActiveDatabase =>
    "No database initialized. Use \"INIT <database_name>\" to initialize a database."
  | .unknownDatabase name => "Database " ++ name ++ " doesn't exist."
  | .storage cause => cause.message

/-- A fault of the program itself. -/
inductive Panic where
  /-- A keyword would have ended inside a character. -/
  | splitCharacter
  /-- A sort gave up. -/
  | disorder
  deriving DecidableEq, Repr

/-- The panic that an error is, if it is one. -/
def Error.panic? : Error → Option Panic
  | .parse .splitCharacter => some .splitCharacter
  | .storage .disorder => some .disorder
  | _ => none

end Tabular
