import Tabular.Text.Chars

/-!
Patterns.

In a pattern `%` stands for any characters, `_` for one character, and every other character for
itself up to simple case folding. `Pattern.matches` decides whether a pattern covers a whole text;
it goes through the pattern from its end and keeps, for every tail of the text, whether the pieces
so far cover that tail.

A pattern is compiled before it is used, by a library with limits of its own, for one on the size of
what it compiles to. Which patterns it refuses, and in which words, is a parameter
(`PatternCompiler`).
-/

namespace Tabular

/-- A compiler for patterns. -/
class PatternCompiler where
  /-- Why a pattern cannot be compiled, if it cannot. -/
  refusal? : String → Option String

/-- The compiler that has no limits. -/
instance PatternCompiler.unlimited : PatternCompiler := ⟨fun _ => none⟩

/-- One character of a pattern. -/
inductive Piece where
  /-- Any characters, perhaps none. -/
  | anyText
  /-- One character, whichever it is. -/
  | anyChar
  /-- One character up to case folding. -/
  | letter (c : Char)
  deriving DecidableEq, Repr

/-- The meaning of a character in a pattern. -/
def Piece.ofChar (c : Char) : Piece :=
  if c = '%' then .anyText else if c = '_' then .anyChar else .letter c

namespace Pattern

/-- The pieces of a pattern. -/
def pieces (pattern : String) : List Piece :=
  pattern.toList.map Piece.ofChar

/-- For every tail of a text, the longest first, whether it is empty. -/
def emptyTails : List Char → List Bool
  | [] => [true]
  | _ :: s => false :: emptyTails s

/-- Puts one character in front: the tails that start with a character of a class, followed by a
tail that is covered. -/
def afterChar (p : Char → Bool) : List Char → List Bool → List Bool
  | c :: s, _ :: covered =>
    (p c && covered.headD false) :: afterChar p s covered
  | _, _ => [false]

/-- Puts any text in front: the tails that have a covered tail. -/
def afterText : List Bool → List Bool
  | [] => []
  | b :: covered =>
    let rest := afterText covered
    (b || rest.headD false) :: rest

/-- For every tail of a text, the longest first, whether the pieces cover it. -/
def coveredTails (s : List Char) : List Piece → List Bool
  | [] => emptyTails s
  | .anyText :: ps => afterText (coveredTails s ps)
  | .anyChar :: ps => afterChar (fun _ => true) s (coveredTails s ps)
  | .letter c :: ps => afterChar (Text.sameFold c) s (coveredTails s ps)

/-- Whether a pattern covers a whole text. -/
def «matches» (pattern text : String) : Bool :=
  (coveredTails text.toList (pieces pattern)).headD false

end Pattern

end Tabular
