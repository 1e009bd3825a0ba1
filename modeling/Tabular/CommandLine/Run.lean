import Tabular.CommandLine.Explain
import Tabular.CommandLine.Options
import Tabular.CommandLine.Repl
import Tabular.Wire.Response

/-!
Running a command.

`run` is the whole program as a function: from the arguments, the input and the folder in which it
is called to its exit code, its output and the folder that it leaves.
-/

namespace Tabular.CommandLine

/-- What the program finds around it when it is called. -/
structure Surroundings where
  environment : Environment
  /-- The directory in which it is called. -/
  directory : Route
  /-- The directory for the data of programs, if there is one. -/
  programData : Option String
  /-- The time. -/
  clock : Timestamp

/-- What a call leads to. -/
structure Conclusion where
  /-- Zero where the command was successful. -/
  code : Nat
  output : Output
  folder : Folder

/-- The exit code of a failure. -/
def failureCode : Nat := 1

/-- The exit code of a misuse. -/
def misuseCode : Nat := 2

/-! ### Failures before a command runs -/

/-- An error with its causes, the outermost first. A refusal by the file system is the cause of the
error that reports it. -/
def causes (kind : Option IoKind) (message : String) : String :=
  match kind with
  | some k => message ++ ": " ++ k.message
  | none => message

/-- The refusal by the file system behind an error. -/
def ioKind? : Error → Option IoKind
  | .storage (.io kind) => some kind
  | _ => none

/-- A complaint about a failure. -/
def failure (message : String) : Output := Output.complaint ("Error: " ++ message)

/-- The complaint that the settings cannot be read. -/
def loadFailure (path : String) (err : ConfigError) : Output :=
  let kind := match err with
    | .io k => some k
    | .malformed _ => none
  failure ("Failed to load " ++ path ++ ": " ++ causes kind err.message)

/-- The complaint that a database cannot be selected. -/
def selectFailure (database : String) (err : Error) : Output :=
  failure ("Cannot use database " ++ database ++ ": " ++ causes (ioKind? err) err.message)

/-- What is written, and the exit code, where the arguments lead to no command. -/
def Stop.conclusion : Stop → Nat × Output
  | .help => (0, Output.lines [usage])
  | .version => (0, Output.lines ["nue 0.1.0"])
  | .misuse cause =>
    (misuseCode, Output.complaint ("error: " ++ cause.message) ++ Output.complaint usage)

/-! ### Commands -/

variable [PatternCompiler]

/-- A response in a format. -/
def Format.output (r : BatchResponse) : Format → Output
  | .table => reportOutput r
  | .json => Output.lines [r.toJson.pretty]

/-- Selects a database if one is named: what is written if that fails. -/
def selectFirst : Option String → RequestM (Option Output)
  | none => return none
  | some name => do
    match ← (Session.execute ("INIT " ++ name)).run with
    | .ok _ => return none
    | .error err =>
      match err.panic? with
      | some panic => throw panic
      | none => return some (selectFailure name err)

/-- Selects a database if one is named, runs a batch and writes the response. -/
def answerBatch (persist : Bool) (statements : String) (database : Option String) (save : Bool)
    (format : Format) : RequestM (Nat × Output) := do
  match ← selectFirst database with
  | some complaint => return (failureCode, complaint)
  | none =>
    let r ← Session.handleRequest (requestHeaders (save && persist)) (some statements)
    return (if r.isOk then 0 else failureCode, format.output r)

/-- Runs a command: its exit code and its output. -/
def Command.perform (persist : Bool) (input : String) :
    Command → StateM (Interpreter × Session) (Nat × Output)
  | .exec statements database save format => do
    match ← (answerBatch persist statements database save format).run with
    | .ok answered => return answered
    | .error panic => return (panicCode, panicked panic)
  | .repl => Repl.run persist input
  | .explain statement => return CommandLine.explain statement

/-- The settings for a call: those of the file, changed by the options. -/
def Options.settings (o : Options) (s : Surroundings) (folder : Folder) :
    Except ConfigError Config := do
  let base := Config.default (Config.defaultDataDir s.programData)
  return o.adjust (← Config.loadOrDefault base folder s.directory o.config)

/-- The interpreter that a call starts with. -/
def interpreterOf (c : Config) (s : Surroundings) (folder : Folder) : Interpreter :=
  Interpreter.new
    (Engine.new (if c.persist then some (s.directory.join c.dataDir) else none) folder s.clock)

/-- Runs the program. -/
def run (s : Surroundings) (args : List String) (input : String) (folder : Folder) : Conclusion :=
  match Options.parse s.environment args with
  | .error stop => { code := stop.conclusion.1, output := stop.conclusion.2, folder }
  | .ok o =>
    match o.settings s folder with
    | .error err => { code := failureCode, output := loadFailure o.config err, folder }
    | .ok c =>
      let start := (interpreterOf c s folder, Session.new)
      let ((code, output), i, _) := (o.command.perform c.persist input).run start
      { code, output, folder := i.engine.folder }

end Tabular.CommandLine
