import Tabular.CommandLine.Output
import Tabular.Report
import Tabular.Session

/-!
The interactive mode: a batch per line, and its report.

Words of the mode itself end it, show help or clear the screen. A prompt that names the selected
database is written before every line, the end of the input included.
-/

namespace Tabular.CommandLine

/-- The headers of a request that asks to save or does not. -/
def requestHeaders (save : Bool) : Keyed String :=
  if save then Keyed.empty.insert Header.save.name "" else Keyed.empty

/-- A response as a report. -/
def reportOutput (r : BatchResponse) : Output :=
  Output.lines r.reportLines ++
    match r.failure with
    | some f => Output.complaint f.reportLine
    | none => Output.empty

namespace Repl

/-- The greeting. -/
def banner : Output :=
  Output.lines
    ["Nue REPL (Interactive Mode)", "Type statements separated by ';'. Commands:",
      "  .exit  - Exit the REPL", "  .help - Show help", "  .clear - Clear screen", ""]

/-- The help. -/
def help : Output :=
  Output.lines
    ["Nue REPL Commands:", "  .exit     - Exit the REPL", "  .help     - Show this help",
      "  .clear    - Clear screen", "", "Statement Examples:",
      "  CREATE DATABASE shop; INIT shop",
      "  CREATE TABLE users (id as primary_key, name, age)",
      "  INSERT INTO users (id, name, age) VALUES (1, 'Ann', 34)",
      "  FIND name FROM users WHERE age >= 21 ORDER BY name LIMIT 10",
      "  UPDATE users SET age = 35 WHERE PRIMARY_KEY = 1",
      "  DELETE FROM users WHERE name LIKE 'a%'", "  SHOW DATABASES LIKE 'sh%'", ""]

/-- The farewell. -/
def farewell : Output := Output.lines ["Goodbye!"]

/-- The control sequences that clear a screen. -/
def clearScreen : Output := Output.text "\x1b[2J\x1b[1;1H"

/-- What is written before a line is read. -/
def prompt (s : Session) : Output :=
  match s.activeName with
  | some name => Output.text ("nue:" ++ name ++ "> ")
  | none => Output.text "nue> "

/-- What a line asks for. -/
inductive Command where
  | nothing
  | exit
  | help
  | clear
  | run (body : String)
  deriving DecidableEq, Repr

/-- A line after its backspaces: each one takes back the character before it. `typed` is what stands
so far, last character first. -/
def backspaced (typed : List Char) : List Char → List Char
  | [] => typed.reverse
  | c :: s => if c = '\x08' then backspaced typed.tail s else backspaced (c :: typed) s

/-- Reads a line; white space around it does not count. -/
def Command.ofLine (line : String) : Command :=
  match String.ofList (Text.trim (backspaced [] line.toList)) with
  | "" => .nothing
  | ".exit" | ".quit" | "exit" | "quit" => .exit
  | ".help" | "help" => .help
  | ".clear" | "clear" => .clear
  | body => .run body

variable [PatternCompiler]

/-- Obeys a line; none at the end of the conversation. -/
def obey (save : Bool) : Command → RequestM (Option Output)
  | .nothing => return some Output.empty
  | .exit => return none
  | .help => return some help
  | .clear => return some clearScreen
  | .run body => do
    let response ← Session.handleRequest (requestHeaders save) (some body)
    return some (reportOutput response ++ Output.lines [""])

/-- A conversation from its first prompt to the farewell, or to a panic: the exit code and the
output. -/
def converse (save : Bool) : List String → StateM (Interpreter × Session) (Nat × Output)
  | [] => return (0, prompt (← get).2 ++ farewell)
  | line :: lines => do
    let before := prompt (← get).2
    match ← (obey save (Command.ofLine line)).run with
    | .error panic => return (panicCode, before ++ panicked panic)
    | .ok none => return (0, before ++ farewell)
    | .ok (some output) =>
      let (code, later) ← converse save lines
      return (code, before ++ output ++ later)

/-- The lines of an input; nothing after the last line end is no line. -/
def inputLines (input : String) : List String :=
  let parts := Text.splitAll '\n' input.toList
  let parts := if parts.getLast? = some [] then parts.dropLast else parts
  parts.map String.ofList

/-- The interactive mode on a whole input. -/
def run (save : Bool) (input : String) : StateM (Interpreter × Session) (Nat × Output) := do
  let (code, output) ← converse save (inputLines input)
  return (code, banner ++ output)

end Repl

end Tabular.CommandLine
