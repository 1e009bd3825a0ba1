import Tabular.Number.Shortest

/-!
Comparing cells.

Two cells that are both numeric compare as numbers, any other two as texts by code point. A null
comes before every value. `canonical` writes a value so that equal values get equal texts.
-/

namespace Tabular.Cell

/-- The order of two texts by code point. -/
def compareTexts (left right : String) : Ordering :=
  compareOfLessAndEq left right

/-- The order of two integers. -/
def compareInts (left right : Int) : Ordering :=
  if left < right then .lt else if left = right then .eq else .gt

/-- The order of two values. -/
def compareValues (left right : String) : Ordering :=
  match numeric? left, numeric? right with
  | some a, some b => compareInts a b
  | _, _ => compareTexts left right

/-- Whether two values are equal in that order: `1`, `01` and `1.0` are. -/
def sameValue (left right : String) : Bool :=
  compareValues left right = .eq

/-- A text for a value that is the same for two values exactly when the values are equal. -/
def canonical (value : String) : String :=
  match numeric? value with
  | some n => Shortest.text n
  | none => value

/-- The order of two cells; nulls first. -/
def compareCells : Option String → Option String → Ordering
  | none, none => .eq
  | none, some _ => .lt
  | some _, none => .gt
  | some a, some b => compareValues a b

end Tabular.Cell
