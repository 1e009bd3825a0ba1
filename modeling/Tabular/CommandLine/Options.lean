import Tabular.CommandLine.Arguments
import Tabular.Config

/-!
The options and the commands of the program.

General options stand before the command, those of the command after it. `Options.parse` reads a
whole command line; an option that is not given may have a value in the environment.
-/

namespace Tabular.CommandLine

/-- How the response to a batch is written. -/
inductive Format where
  | table
  | json
  deriving DecidableEq, Repr

/-- The format of a name. -/
def Format.ofName? : String → Option Format
  | "table" => some .table
  | "json" => some .json
  | _ => none

/-- What the program is asked to do. -/
inductive Command where
  /-- Run a batch, perhaps in a database, and save unless told not to. -/
  | exec (statements : String) (database : Option String) (save : Bool) (format : Format)
  /-- Run batches line by line. -/
  | repl
  /-- Show how a statement is read. -/
  | explain (statement : String)
  deriving DecidableEq, Repr

/-- Everything that a command line says. -/
structure Options where
  /-- The file with the settings. -/
  config : String
  /-- The directory of the snapshots, where it is not the one of the settings. -/
  dataDir : Option String
  /-- Whether no snapshots are written or read, whatever the settings say. -/
  memory : Bool
  command : Command
  deriving DecidableEq, Repr

/-- The values that the environment has for options. -/
structure Environment where
  config : Option String
  dataDir : Option String
  deriving DecidableEq, Repr

namespace Options

/-- The general options. -/
def general : List Choice :=
  [⟨"config", some 'c', .path⟩, ⟨"data-dir", none, .path⟩, ⟨"memory", none, .switch⟩,
    ⟨"version", some 'V', .ending .version⟩]

/-- The options of `exec`. -/
def ofExec : List Choice :=
  [⟨"database", some 'd', .text⟩, ⟨"no-save", none, .switch⟩, ⟨"format", some 'f', .text⟩]

/-- The only operand of a command. -/
def operand (name : String) (g : Given) : Except Stop String :=
  match g.operands with
  | s :: _ => .ok s
  | [] => .error (.misuse (.operandMissing name))

/-- The format that was asked for. -/
def format (g : Given) : Except Stop Format :=
  match g.value? "format" with
  | none => .ok .table
  | some name =>
    match Format.ofName? name with
    | some f => .ok f
    | none => .error (.misuse (.valueInvalid "format" name))

/-- Reads a command: its name, its options and its operands. -/
def parseCommand : List String → Except Stop Command
  | [] => .error (.misuse .commandMissing)
  | "exec" :: args => do
    let (g, _) ← Given.scan ofExec 1 args
    let format ← format g
    return .exec (← operand "STATEMENTS" g) (g.value? "database") (!g.has "no-save") format
  | "repl" :: args => do
    match ← Given.scan [] 0 args with
    | (_, []) => return .repl
    | (_, s :: _) => .error (.misuse (.unexpected s))
  | "explain" :: args => do
    let (g, _) ← Given.scan [] 1 args
    return .explain (← operand "STATEMENT" g)
  | "help" :: _ => .error .help
  | word :: _ => .error (.misuse (.commandUnknown word))

/-- The path that an option or else the environment names. A path is not empty, in the environment
as little as in an option. -/
def path (g : Given) (option : String) (inherited : Option String) :
    Except Stop (Option String) :=
  match g.value? option, inherited with
  | some p, _ => .ok (some p)
  | none, some "" => .error (.misuse (.valueMissing option))
  | none, p => .ok p

/-- Reads a command line. -/
def parse (environment : Environment) (args : List String) : Except Stop Options := do
  let (g, rest) ← Given.scan general 0 args
  let command ← parseCommand rest
  let config ← path g "config" environment.config
  let dataDir ← path g "data-dir" environment.dataDir
  return { config := config.getD Config.defaultFile, dataDir, memory := g.has "memory", command }

/-- The settings of a configuration as changed by the options. -/
def adjust (o : Options) (c : Config) : Config :=
  { c with
    dataDir := o.dataDir.getD c.dataDir
    persist := c.persist && !o.memory }

end Options

/-- How the program is called. -/
def usage : String :=
  "Usage: nue [-c FILE] [--data-dir DIR] [--memory] <exec STATEMENTS | repl | explain STATEMENT>"

end Tabular.CommandLine
