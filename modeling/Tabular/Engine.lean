import Tabular.Folder
import Tabular.Outcome
import Tabular.Wire.Snapshot

/-!
The storage engine.

An engine holds the databases that are in memory and the folder with their snapshots. A database in
memory is a cell of `states`; a name leads to a cell as long as the database is not dropped, and a
handle leads to its cell for good. So a handle goes on working after its database is dropped, and
two handles on one cell see the same tables.

With a data directory, the snapshot of a database `name` is the file `<data
directory>/<scope>/name.json`, where the name may itself have several steps; without one, nothing is
read or written.
-/

namespace Tabular

/-- Where a database belongs. -/
inductive Scope where
  /-- The catalog. -/
  | system
  /-- The databases of the users. -/
  | data
  deriving DecidableEq, Repr

/-- The name of a scope's directory. -/
def Scope.directory : Scope → String
  | .system => "system"
  | .data => "data"

/-- A map from names to values in either scope. -/
structure Scoped (α : Type) where
  system : Keyed α
  data : Keyed α

namespace Scoped

variable {α : Type}

/-- No entries. -/
def empty : Scoped α := ⟨Keyed.empty, Keyed.empty⟩

/-- The entries of a scope. -/
def of (m : Scoped α) : Scope → Keyed α
  | .system => m.system
  | .data => m.data

/-- The value of a name in a scope. -/
def get? (m : Scoped α) (scope : Scope) (name : String) : Option α :=
  (m.of scope).get? name

/-- Sets the value of a name in a scope. -/
def insert (m : Scoped α) (scope : Scope) (name : String) (value : α) : Scoped α :=
  match scope with
  | .system => { m with system := m.system.insert name value }
  | .data => { m with data := m.data.insert name value }

/-- Takes a name out of a scope. -/
def erase (m : Scoped α) (scope : Scope) (name : String) : Scoped α :=
  match scope with
  | .system => { m with system := m.system.erase name }
  | .data => { m with data := m.data.erase name }

end Scoped

/-- An open database: its name, and its cell in the memory of the engine. -/
structure Handle where
  scope : Scope
  name : String
  cell : Nat
  deriving DecidableEq, Repr

/-- The storage engine. -/
structure Engine where
  /-- The directory of the snapshots, if there are any. -/
  dataDir : Option Route
  folder : Folder
  /-- The databases in memory by their names. -/
  live : Scoped Nat
  /-- Every database that was ever in memory. -/
  states : List Database
  /-- The time at which new databases are created. -/
  clock : Timestamp

/-- An operation of the engine. What it has changed by the time it fails stays changed. -/
abbrev EngineM := ExceptT StorageError (StateM Engine)

namespace Engine

/-- An engine without databases in memory. -/
def new (dataDir : Option Route) (folder : Folder) (clock : Timestamp) : Engine :=
  { dataDir, folder, live := Scoped.empty, states := [], clock }

/-- The route to the snapshot of a database in a data directory. -/
def snapshotIn (dir : Route) (scope : Scope) (name : String) : Route :=
  Route.join (dir ++ [scope.directory]) (name ++ ".json")

/-- The route to the snapshot of a database, if the engine has any. -/
def snapshotRoute? (e : Engine) (scope : Scope) (name : String) : Option Route :=
  e.dataDir.map fun dir => snapshotIn dir scope name

/-- The database in a cell. -/
def state (e : Engine) (cell : Nat) : Database :=
  (e.states[cell]?).getD (Database.new e.clock)

/-- The database of a handle. -/
def databaseOf (e : Engine) (h : Handle) : Database := e.state h.cell

/-- The engine with another database in a cell. -/
def setState (e : Engine) (cell : Nat) (db : Database) : Engine :=
  { e with states := e.states.set cell db }

/-! ### Steps -/

/-- What the folder answers to a question. -/
def ask {α : Type} (question : Folder → Except IoKind α) : EngineM α := do
  match question (← get).folder with
  | .ok a => return a
  | .error kind => throw (.io kind)

/-- Changes the folder. -/
def change (act : Folder → Except IoKind Folder) : EngineM Unit := do
  let folder ← ask act
  modify fun e => { e with folder }

/-- Brings a database into memory under a name and gives its cell. -/
def register (scope : Scope) (name : String) (db : Database) : EngineM Nat := do
  let cell := (← get).states.length
  modify fun e =>
    { e with states := e.states ++ [db], live := e.live.insert scope name cell }
  return cell

/-- Reads the snapshot of a database, if there is one. -/
def readSnapshot (scope : Scope) (name : String) : EngineM (Option Database) := do
  match (← get).snapshotRoute? scope name with
  | none => return none
  | some route =>
    if ← ask (·.exists? route) then
      match Database.ofSnapshot? (← ask (·.textAt route)) with
      | some db => return some db
      | none => throw .snapshot
    else return none

/-- The cell of a database: in memory already, or brought there from its snapshot. -/
def load (scope : Scope) (name : String) : EngineM (Option Nat) := do
  match (← get).live.get? scope name with
  | some cell => return some cell
  | none =>
    match ← readSnapshot scope name with
    | some db => return some (← register scope name db)
    | none => return none

/-! ### Operations -/

/-- Opens a database, if it exists. -/
def «open» (scope : Scope) (name : String) : EngineM (Option Handle) := do
  return (← load scope name).map fun cell => { scope, name, cell }

/-- Writes the snapshot of a database. -/
def save (h : Handle) : EngineM Unit := do
  let e ← get
  match e.snapshotRoute? h.scope h.name with
  | none => return
  | some route =>
    change (·.makeDirectories route.dropLast)
    change (·.write route (e.databaseOf h).snapshot)

/-- Creates a database. Its snapshot is written at once. -/
def createDatabase (scope : Scope) (name : String) : EngineM Outcome := do
  if (← load scope name).isSome then throw (.databaseExists name)
  let cell ← register scope name (Database.new (← get).clock)
  save { scope, name, cell }
  return .message ("Database " ++ name ++ " created.")

/-- Removes the snapshot of a database; false, if there is none. -/
def removeSnapshot (scope : Scope) (name : String) : EngineM Bool := do
  match (← get).snapshotRoute? scope name with
  | none => return false
  | some route =>
    if ← ask (·.exists? route) then
      change (·.remove route)
      return true
    else return false

/-- Drops a database, from memory first and then its snapshot. -/
def dropDatabase (scope : Scope) (name : String) : EngineM Outcome := do
  let removed := ((← get).live.get? scope name).isSome
  modify fun e => { e with live := e.live.erase scope name }
  let deleted ← removeSnapshot scope name
  if !removed && !deleted then throw (.databaseNotFound name)
  return .message ("Database " ++ name ++ " dropped.")

/-- Describes a database of the users. An open one is described as its handle sees it. -/
def describeDatabase (active : Option Handle) (name : String) : EngineM Outcome := do
  match active.filter (·.name = name) with
  | some h => return .database (((← get).databaseOf h).describe name)
  | none =>
    match ← load .data name with
    | some cell => return .database (((← get).state cell).describe name)
    | none => throw (.databaseNotFound name)

/-! ### Tables of an open database -/

variable [PatternCompiler]

/-- Asks the database of a handle. -/
def query {α : Type} (h : Handle) (f : Database → Except StorageError α) : EngineM α := do
  match f ((← get).databaseOf h) with
  | .ok a => return a
  | .error err => throw err

/-- Changes the database of a handle. -/
def edit {α : Type} (h : Handle) (f : Database → Except StorageError (α × Database)) :
    EngineM α := do
  let (a, db) ← query h f
  modify fun e => e.setState h.cell db
  return a

/-- Creates a table. -/
def createTable (h : Handle) (spec : TableSpec) : EngineM Outcome :=
  edit h fun db => do
    return (.message ("Table " ++ spec.name ++ " created."), ← db.createTable spec)

/-- Drops a table. -/
def dropTable (h : Handle) (name : String) : EngineM Outcome :=
  edit h fun db => do
    return (.message ("Table " ++ name ++ " dropped."), ← db.dropTable name)

/-- Inserts a row. -/
def insert (h : Handle) (spec : InsertSpec) : EngineM Outcome :=
  edit h fun db => do return (.affected 1, ← db.insert spec)

/-- Finds rows. -/
def find (h : Handle) (q : QuerySpec) : EngineM Outcome :=
  query h fun db => do return .rows (← db.find q)

/-- Updates rows. -/
def update (h : Handle) (q : QuerySpec) : EngineM Outcome :=
  edit h fun db => do
    let (n, db) ← db.update q
    return (.affected n, db)

/-- Deletes rows. -/
def delete (h : Handle) (q : QuerySpec) : EngineM Outcome :=
  edit h fun db => do
    let (n, db) ← db.delete q
    return (.affected n, db)

/-- Describes a table. -/
def describeTable (h : Handle) (name : String) : EngineM Outcome :=
  query h fun db => do return .table (← db.describeTable name)

end Engine

end Tabular
