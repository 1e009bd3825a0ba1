/-!
Arguments of a command line.

An argument is an option, by a long name after two dashes or a letter after one, or an operand. The
value of an option follows in the next argument, or in the same one after an equals sign or right
after the letter. After two dashes alone every argument is an operand. `Given.scan` sorts arguments
by the options that a command knows; each of them may be given once. Arguments are taken one after
the other, so an option that ends the scan hides the faults behind it, not those before it.
-/

namespace Tabular.CommandLine

/-- How arguments miss what a command expects. -/
inductive Misuse where
  | unexpected (argument : String)
  | repeated (option : String)
  | valueMissing (option : String)
  | valueInvalid (option value : String)
  | operandMissing (name : String)
  | commandMissing
  | commandUnknown (word : String)
  deriving DecidableEq, Repr

/-- The wording of a misuse. -/
def Misuse.message : Misuse → String
  | .unexpected argument => "unexpected argument '" ++ argument ++ "' found"
  | .repeated option => "the argument '--" ++ option ++ "' cannot be used multiple times"
  | .valueMissing option => "a value is required for '--" ++ option ++ "' but none was supplied"
  | .valueInvalid option value => "invalid value '" ++ value ++ "' for '--" ++ option ++ "'"
  | .operandMissing name => "the argument <" ++ name ++ "> was not provided"
  | .commandMissing => "a subcommand is required"
  | .commandUnknown word => "unrecognized subcommand '" ++ word ++ "'"

/-- Why arguments lead to no command. -/
inductive Stop where
  /-- They ask for help. -/
  | help
  /-- They ask for the version. -/
  | version
  | misuse (cause : Misuse)
  deriving DecidableEq, Repr

/-- What an option is for. -/
inductive Choice.Purpose where
  /-- It is given or not. -/
  | switch
  /-- It has a value, any text. -/
  | text
  /-- It has a value, a path, which is not empty. -/
  | path
  /-- It ends the scan where it stands, whatever follows. -/
  | ending (reason : Stop)
  deriving DecidableEq, Repr

/-- An option of a command. -/
structure Choice where
  long : String
  short : Option Char
  purpose : Choice.Purpose
  deriving DecidableEq, Repr

/-- The option for help. -/
def Choice.help : Choice := ⟨"help", some 'h', .ending .help⟩

/-- The form of an argument. -/
inductive Argument where
  /-- Two dashes alone. -/
  | separator
  | long (name : String) (value : Option String)
  /-- A letter, and what stands after it. -/
  | short (letter : Char) (attached : List Char)
  | operand
  deriving DecidableEq, Repr

/-- The name and the value on the two sides of the first equals sign. -/
def Argument.ofLong (s : List Char) : Argument :=
  let value :=
    match s.dropWhile (· != '=') with
    | [] => none
    | _ :: v => some (String.ofList v)
  .long (String.ofList (s.takeWhile (· != '='))) value

/-- The form of an argument. A dash alone is an operand. -/
def Argument.ofString (s : String) : Argument :=
  match s.toList with
  | ['-', '-'] => .separator
  | '-' :: '-' :: r => .ofLong r
  | '-' :: letter :: r => .short letter r
  | _ => .operand

/-- What stands right after the letter of an option, as its value. An option that ends the scan has
none there, whatever follows its letter. -/
def Choice.attachedValue (c : Choice) (attached : List Char) : Option String :=
  match c.purpose, attached with
  | .ending _, _ => none
  | _, [] => none
  | _, '=' :: v => some (String.ofList v)
  | _, v => some (String.ofList v)

/-- The options and the operands that a command was given. -/
structure Given where
  /-- Options by their long names; the value of a mere switch is empty. -/
  options : List (String × String)
  operands : List String
  deriving DecidableEq, Repr

namespace Given

/-- Nothing. -/
def empty : Given := { options := [], operands := [] }

/-- The value of an option, if it was given. -/
def value? (g : Given) (long : String) : Option String :=
  (g.options.find? (·.1 = long)).map (·.2)

/-- Whether an option was given. -/
def has (g : Given) (long : String) : Bool := (g.value? long).isSome

/-- One more option. -/
def addOption (g : Given) (long value : String) : Except Stop Given :=
  if g.has long then .error (.misuse (.repeated long))
  else .ok { g with options := g.options ++ [(long, value)] }

/-- One more operand, where at most `most` are expected. -/
def addOperand (most : Nat) (g : Given) (operand : String) : Except Stop Given :=
  if g.operands.length < most then .ok { g with operands := g.operands ++ [operand] }
  else .error (.misuse (.unexpected operand))

/-- The option of an argument among those that a command knows, with the value in that argument. -/
def choice? (choices : List Choice) : Argument → Option (Choice × Option String)
  | .long name value => (choices.find? (·.long = name)).map fun c => (c, value)
  | .short letter attached =>
    (choices.find? (·.short = some letter)).map fun c => (c, c.attachedValue attached)
  | _ => none

/-- One more option that has a value. -/
def addValue (g : Given) (c : Choice) (value : String) : Except Stop Given :=
  if c.purpose = .path ∧ value = "" then .error (.misuse (.valueMissing c.long))
  else g.addOption c.long value

/-- Takes an option of a command: its value stands in the same argument or has to follow. In the
last case the option is given back. -/
def addChoice (g : Given) (argument : String) (c : Choice) (value : Option String) :
    Except Stop (Given × Option Choice) :=
  match c.purpose, value with
  | .ending reason, none => .error reason
  | .switch, none => do return (← g.addOption c.long "", none)
  | .ending _, some _ | .switch, some _ => .error (.misuse (.unexpected argument))
  | .text, none | .path, none => .ok (g, some c)
  | .text, some v | .path, some v => do return (← g.addValue c v, none)

/-- Sorts arguments, of which the first one is the value of the option that waits for one. If no
operands are expected, the first one ends the scan, and it is given back with the arguments after
it. -/
def scanFrom (choices : List Choice) (most : Nat) (waiting : Option Choice) (g : Given) :
    List String → Except Stop (Given × List String)
  | [] =>
    match waiting with
    | some c => .error (.misuse (.valueMissing c.long))
    | none => .ok (g, [])
  | s :: rest =>
    match waiting, Argument.ofString s with
    | some c, .operand => do scanFrom choices most none (← g.addValue c s) rest
    | some c, _ => .error (.misuse (.valueMissing c.long))
    | none, .separator => do return (← rest.foldlM (addOperand most) g, [])
    | none, .operand =>
      if most = 0 then .ok (g, s :: rest)
      else do scanFrom choices most none (← addOperand most g s) rest
    | none, argument =>
      match choice? choices argument with
      | none => .error (.misuse (.unexpected s))
      | some (c, value) => do
        let (g, waiting) ← g.addChoice s c value
        scanFrom choices most waiting g rest

/-- Sorts arguments by the options of a command; every command has the one for help besides. -/
def scan (choices : List Choice) (most : Nat) (args : List String) :
    Except Stop (Given × List String) :=
  scanFrom (.help :: choices) most none empty args

end Given

end Tabular.CommandLine
