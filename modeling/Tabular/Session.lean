import Tabular.Engine
import Tabular.Request.OfStatement

/-!
Interpreters and sessions.

An interpreter has the engine and the catalog, a database of its own that lists the databases of the
users; the catalog is opened when it is first needed and kept from then on. A session belongs to one
client and remembers the database that the client has selected. Sessions of one interpreter share
its databases.
-/

namespace Tabular

namespace Catalog

/-- The name of the catalog's database. -/
def database : String := "nue"

/-- The table with a row for each database of the users. -/
def table : String := "database"

/-- The primary key of that table. -/
def key : String := "name"

/-- The catalog's table when it is new. -/
def spec : TableSpec := { name := table, primaryKey := some key, columns := [] }

/-- The row for a database. -/
def entry (name : String) : InsertSpec :=
  { table := table, columns := some [key], values := [name] }

/-- The rows whose name stands in a relation to a value. -/
def having (operator : Operator) (value : String) : QuerySpec :=
  { table := table
    condition := some { target := .field key, operator, operand := .scalar value } }

/-- Opens the catalog; creates it, if it does not exist. -/
def «open» : EngineM Handle := do
  match ← Engine.open .system database with
  | some h => return h
  | none =>
    let _ ← Engine.createDatabase .system database
    match ← Engine.open .system database with
    | none => throw (.databaseNotFound database)
    | some h =>
      let _ ← Engine.createTable h spec
      return h

end Catalog

/-- What the sessions of one server or one program share. -/
structure Interpreter where
  engine : Engine
  /-- The catalog, once it has been opened. -/
  catalog : Option Handle

/-- What one client has selected. -/
structure Session where
  active : Option Handle
  deriving DecidableEq, Repr

/-- An interpreter over an engine, with the catalog not yet opened. -/
def Interpreter.new (engine : Engine) : Interpreter := { engine, catalog := none }

/-- A session without a selection. -/
def Session.new : Session := { active := none }

/-- The name of the selected database. -/
def Session.activeName (s : Session) : Option String := s.active.map (·.name)

/-- An operation of a session. What it has changed by the time it fails stays changed. -/
abbrev SessionM := ExceptT Error (StateM (Interpreter × Session))

/-- The handling of a request: it ends in a response, whether or not a statement fails, or in a
panic. -/
abbrev RequestM := ExceptT Panic (StateM (Interpreter × Session))

namespace Session

variable [PatternCompiler]

/-- Runs an operation of the engine. -/
def storage {α : Type} (act : EngineM α) : SessionM α := do
  let (i, s) ← get
  let (result, engine) := act.run.run i.engine
  set ({ i with engine }, s)
  match result with
  | .ok a => return a
  | .error err => throw (.storage err)

/-- The catalog, opened now if it has not been before. -/
def catalog : SessionM Handle := do
  match (← get).1.catalog with
  | some h => return h
  | none =>
    let h ← storage Catalog.open
    modify fun p => ({ p.1 with catalog := some h }, p.2)
    return h

/-- The selected database. -/
def requireActive : SessionM Handle := do
  match (← get).2.active with
  | some h => return h
  | none => throw .noActiveDatabase

/-- Changes the selection. -/
def setActive (active : Option Handle) : SessionM Unit :=
  modify fun p => (p.1, { active })

/-- A request that has to be made of a statement first. -/
def require {α : Type} (made : Except Error α) : SessionM α :=
  match made with
  | .ok a => return a
  | .error err => throw err

/-- A part that a statement may not lack. -/
def requirePart {α : Type} (part : Missing) : Option α → SessionM α
  | some a => return a
  | none => throw (.missing part)

/-- Writes the snapshot of the selected database, if there is one. -/
def saveActive : SessionM Unit := do
  match (← get).2.active with
  | some h => storage (Engine.save h)
  | none => return

/-! ### Statements -/

/-- Selects a database. The one selected before is saved first, and stays selected where anything
fails. -/
def select (name : String) : SessionM Outcome := do
  saveActive
  match ← storage (Engine.open .data name) with
  | none => throw (.unknownDatabase name)
  | some h =>
    setActive (some h)
    return .message ("Using database: " ++ name)

/-- Creates a database: first its row in the catalog, then the database. -/
def createDatabase (name : String) : SessionM Outcome := do
  let c ← catalog
  let _ ← storage (Engine.insert c (Catalog.entry name))
  storage (Engine.createDatabase .data name)

/-- Drops a database: first its row in the catalog, then the database. If it is the selected one,
none is selected afterwards. -/
def dropDatabase (name : String) : SessionM Outcome := do
  let c ← catalog
  let _ ← storage (Engine.delete c (Catalog.having .eq name))
  let outcome ← storage (Engine.dropDatabase .data name)
  if (← get).2.activeName = some name then setActive none
  return outcome

/-- Lists the databases whose names a pattern covers, all of them without a pattern. -/
def listDatabases (pattern : Option String) : SessionM Outcome := do
  let c ← catalog
  let q : QuerySpec :=
    match pattern with
    | some raw => Catalog.having .like (Request.value raw.toList)
    | none => { table := Catalog.table }
  storage (Engine.find c q)

/-- Runs one statement. -/
def dispatch : Statement → SessionM Outcome
  | .init database => select database
  | .create .database name parameters => do
    if parameters.isSome then throw .databaseParameters
    createDatabase name
  | .create .table name parameters => do
    let db ← requireActive
    let parameters ← requirePart .tableColumns parameters
    let spec ← require (TableSpec.ofParameters name parameters)
    storage (Engine.createTable db spec)
  | .insert table columns values => do
    let db ← requireActive
    let spec ← require (InsertSpec.ofStatement table columns values)
    storage (Engine.insert db spec)
  | .find search => do
    let db ← requireActive
    let q ← require (QuerySpec.ofSearch search)
    storage (Engine.find db q)
  | .describe kind name => do
    let name ← requirePart .described name
    match kind with
    | .table => do
      let db ← requireActive
      storage (Engine.describeTable db name)
    | .database => do
      let active := (← get).2.active
      storage (Engine.describeDatabase active name)
  | .show pattern => listDatabases pattern
  | .drop .database name => do
    let name ← requirePart .droppedDatabase name
    dropDatabase name
  | .drop .table name => do
    let db ← requireActive
    let name ← requirePart .droppedTable name
    storage (Engine.dropTable db name)
  | .delete table filter => do
    let db ← requireActive
    let q ← require (QuerySpec.ofDelete table filter)
    storage (Engine.delete db q)
  | .update table assignments filter => do
    let db ← requireActive
    let q ← require (QuerySpec.ofUpdate table assignments filter)
    storage (Engine.update db q)

/-- Reads and runs one statement. -/
def execute (raw : String) : SessionM Outcome :=
  match Statement.parse raw with
  | .ok statement => dispatch statement
  | .error cause => throw (.parse cause)

/-- Saves the selected database, if there is one, and then the catalog. -/
def save : SessionM Unit := do
  saveActive
  let c ← catalog
  storage (Engine.save c)

/-! ### Batches and requests -/

/-- What a batch comes to where a statement fails: a response that tells the failure, or the panic
that it is. -/
def stopped (results : List Outcome) (err : Error) : Except Panic BatchResponse :=
  match err.panic? with
  | some cause => .error cause
  | none => .ok (BatchResponse.failed results results.length err.message)

/-- Runs statements until one fails. `results` are the outcomes of those before them. -/
def runStatements (results : List Outcome) : List String → RequestM BatchResponse
  | [] => return BatchResponse.ok results
  | raw :: rest => do
    match ← (execute raw).run with
    | .ok outcome => runStatements (results ++ [outcome]) rest
    | .error err => ofExcept (stopped results err)

/-- Runs a batch. -/
def runBatch (body : String) : RequestM BatchResponse :=
  runStatements [] (splitBatch body)

end Session

/-- A header that an interpreter knows. -/
inductive Header where
  /-- A greeting; it changes nothing. -/
  | handShake
  /-- Asks to save after the batch. -/
  | save
  deriving DecidableEq, Repr

/-- The name of a header. -/
def Header.name : Header → String
  | .handShake => "HandShake"
  | .save => "Save"

/-- The header of a name, in any ASCII letter case. -/
def Header.ofName? (name : String) : Option Header :=
  if Text.sameAscii name.toList "handshake".toList then some .handShake
  else if Text.sameAscii name.toList "save".toList then some .save
  else none

namespace Session

/-- Whether headers ask to save. -/
def asksToSave (headers : Keyed String) : Bool :=
  headers.entries.any fun h => Header.ofName? h.1 = some .save

variable [PatternCompiler]

/-- Runs the batch of a request. An absent or empty body is one without statements. -/
def runBody : Option String → RequestM BatchResponse
  | some body => if body = "" then return BatchResponse.ok [] else runBatch body
  | none => return BatchResponse.ok []

/-- Answers a request: runs its batch and then saves if the headers ask for it. A failure to save
does not show in the response; a batch that panics is not followed by a saving. -/
def handleRequest (headers : Keyed String) (body : Option String) : RequestM BatchResponse := do
  let response ← runBody body
  if asksToSave headers then
    let _ ← save.run
  return response

end Session

end Tabular
