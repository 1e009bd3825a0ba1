import Tabular.Error

/-!
What a command writes.

A command writes lines on two channels: its results on one, complaints on the other. An `Output`
holds the text of either, so that a command is a function from its input to its output. A panic
ends the program with an exit code of its own.
-/

namespace Tabular.CommandLine

/-- The text on the two channels of a command. -/
structure Output where
  /-- The results. -/
  out : String
  /-- The complaints. -/
  err : String
  deriving DecidableEq, Repr

namespace Output

/-- Nothing on either channel. -/
def empty : Output := ⟨"", ""⟩

/-- One output after another. -/
protected def append (a b : Output) : Output := ⟨a.out ++ b.out, a.err ++ b.err⟩

instance : Append Output where
  append := Output.append

/-- The text of lines. -/
def unlines (lines : List String) : String :=
  String.join (lines.map (· ++ "\n"))

/-- A text among the results. -/
def text (s : String) : Output := ⟨s, ""⟩

/-- Lines among the results. -/
def lines (l : List String) : Output := text (unlines l)

/-- A line among the complaints. -/
def complaint (line : String) : Output := ⟨"", unlines [line]⟩

end Output

/-- The exit code after a panic. -/
def panicCode : Nat := 101

/-- What a panic writes. -/
def panicked : Panic → Output
  | .splitCharacter => Output.complaint ParseError.splitCharacter.message
  | .disorder => Output.complaint StorageError.disorder.message

end Tabular.CommandLine
