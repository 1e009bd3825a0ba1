import Std.Time.DateTime
import Tabular.CommandLine.Run

/-!
The program.

The commands are functions; this module brings them the arguments, the lines and the files, writes
what they answer, and carries the changes of the folder over to the disk. Only snapshots of
databases that a text can name are read.
-/

namespace Tabular.Main

open Tabular.CommandLine

/-! ### The surroundings -/

/-- The present time. -/
def now : IO Timestamp := do
  let t := Std.Time.PlainDateTime.ofWallTime
    ((← Std.Time.Timestamp.now).toWallTime Std.Time.TimeZone.Offset.zero)
  return {
    year := t.date.year.toInt
    month := t.date.month.val.toNat
    day := t.date.day.val.toNat
    hour := t.time.hour.val.toNat
    minute := t.time.minute.val.toNat
    second := t.time.second.val.toNat
    nanosecond := t.time.nanosecond.val.toNat }

/-- The directory for the data of programs: the one that is named for it, or else the usual one in
the home directory. -/
def programData (named home : Option String) : Option String :=
  match named.filter (·.startsWith "/") with
  | some dir => some dir
  | none => (home.filter (· != "")).map (· ++ "/.local/share")

/-- What the program finds around it. -/
def surroundings : IO Surroundings := do
  return {
    environment := { config := ← IO.getEnv "NUE_CONFIG", dataDir := ← IO.getEnv "NUE_DATA_DIR" }
    directory := []
    programData := programData (← IO.getEnv "XDG_DATA_HOME") (← IO.getEnv "HOME")
    clock := ← now }

/-! ### The disk -/

/-- What stands at a path on the disk, if anything does. -/
def entryOnDisk (path : String) : IO (Option Entry) := do
  try
    return some (.file (← IO.FS.readFile path))
  catch err =>
    match err with
    | .noFileOrDirectory .. => return none
    | .inappropriateType _ code _ => return if code = 21 then some .directory else none
    | _ => throw err

/-- The place on the disk of a path in the data directory. -/
def placeOnDisk (c : Config) (path : Path) : String :=
  String.intercalate "/" (c.dataDir :: path)

/-- Every name of a database that a text can hold. -/
def namesIn (text : String) : List String :=
  let cut := text.toList.map fun ch => if Text.isWordChar ch || ch == '-' then ch else ' '
  (((Text.splitAll ' ' cut).filter (· != [])).map String.ofList).eraseDups

/-- The snapshots that a text can lead to. -/
def snapshotsFor (text : String) : List Path :=
  [Scope.system.directory, Catalog.database ++ ".json"] ::
    (namesIn text).map fun name => [Scope.data.directory, name ++ ".json"]

/-- Reads the snapshots that a text can lead to, as far as the folder does not have them. -/
def fetch (c : Config) (text : String) (folder : Folder) : IO Folder := do
  if c.persist then
    (snapshotsFor text).foldlM
      (fun folder path => do
        if (folder.entryAt? path).isSome then return folder
        else
          match ← entryOnDisk (placeOnDisk c path) with
          | some e => return folder.place path e
          | none => return folder)
      folder
  else return folder

/-- Carries the difference between two states of the folder over to the disk. -/
def carryOver (c : Config) (before after : Folder) : IO Unit := do
  for file in after.files do
    let path := Route.ofText file
    match after.entryAt? path with
    | some (.file text) =>
      if before.entryAt? path ≠ some (.file text) then
        IO.FS.createDirAll (placeOnDisk c path.dropLast)
        IO.FS.writeFile (placeOnDisk c path) text
    | _ => pure ()
  for file in before.files do
    let path := Route.ofText file
    if (after.entryAt? path).isNone then IO.FS.removeFile (placeOnDisk c path)

/-! ### Commands -/

/-- Writes an output. -/
def write (output : Output) : IO Unit := do
  IO.print output.out
  (← IO.getStdout).flush
  IO.eprint output.err

/-- Runs an operation of a session on the snapshots that a text can lead to. -/
def onDisk {α : Type} (c : Config) (text : String) (act : StateM (Interpreter × Session) α)
    (state : Interpreter × Session) : IO (α × Interpreter × Session) := do
  let (i, s) := state
  let before ← fetch c text i.engine.folder
  let clock ← now
  let i := { i with engine := { i.engine with folder := before, clock } }
  let (a, i, s) := act.run (i, s)
  carryOver c before i.engine.folder
  return (a, i, s)

/-- The interactive mode, line by line, and its exit code. -/
partial def converse (c : Config) (state : Interpreter × Session) : IO Nat := do
  write (Repl.prompt state.2)
  let line ← (← IO.getStdin).getLine
  if line.isEmpty then
    write Repl.farewell
    return 0
  else
    let obeyed := (Repl.obey c.persist (Repl.Command.ofLine line)).run
    let (answer, state) ← onDisk c line obeyed state
    match answer with
    | .error panic =>
      write (panicked panic)
      return panicCode
    | .ok none =>
      write Repl.farewell
      return 0
    | .ok (some output) =>
      write output
      converse c state

/-- Runs a command and gives the exit code. -/
def perform (c : Config) (command : Command) (state : Interpreter × Session) : IO Nat := do
  match command with
  | .repl =>
    write Repl.banner
    converse c state
  | .exec statements database _ _ =>
    let text := statements ++ " " ++ database.getD ""
    let ((code, output), _) ← onDisk c text (command.perform c.persist "") state
    write output
    return code
  | .explain statement =>
    let (code, output) := CommandLine.explain statement
    write output
    return code

/-- Runs the program and gives the exit code. -/
def program (args : List String) : IO Nat := do
  let s ← surroundings
  match Options.parse s.environment args with
  | .error stop =>
    write stop.conclusion.2
    return stop.conclusion.1
  | .ok o =>
    let folder :=
      match ← entryOnDisk o.config with
      | some e => Folder.empty.place (Route.ofText o.config) e
      | none => Folder.empty
    match o.settings s folder with
    | .error err =>
      write (loadFailure o.config err)
      return failureCode
    | .ok c =>
      let engine := Engine.new (if c.persist then some [] else none) Folder.empty s.clock
      perform c o.command (Interpreter.new engine, Session.new)

end Tabular.Main

/-- The program: its exit code is that of the command. -/
def main (args : List String) : IO UInt32 := do
  try
    return (← Tabular.Main.program args).toUInt32
  catch err =>
    IO.eprintln ("Error: " ++ toString err)
    return 1
