import Tabular.Json.Basic
import Tabular.Number.Double

/-!
Values that can be taken in as a whole.

A member that is ignored need only be well-formed. A value whose shape is still unknown is taken in
with all its parts, and then every part has to have a value: no text may write half of a surrogate
pair, and every number has to be in the range of doubles. `Json.isReadable` decides this.

A number is taken in by its leading digits, as many as fit in 64 bits, and a power of ten: both are
rounded to doubles and multiplied, and the product is rounded once more. So a number just below the
limit may still count as too large.
-/

namespace Tabular

namespace JsonNumber

open Tabular.Text

/-- A whole number with one digit more, if it still fits in 64 bits. -/
def extend? (n : Nat) (digit : Char) : Option Nat :=
  let m := 10 * n + (digit.toNat - '0'.toNat)
  if m < 18446744073709551616 then some m else none

/-- Takes in the digits before the point. From the first digit on that does not fit, each one counts
as a power of ten. -/
def leadingWhole (n : Nat) : List Char → Nat × Int
  | [] => (n, 0)
  | d :: ds =>
    match extend? n d with
    | some m => leadingWhole m ds
    | none => (n, ds.length + 1)

/-- Takes in the digits behind the point, up to the first one that does not fit. -/
def leadingFraction (n : Nat) (exponent : Int) : List Char → Nat × Int
  | [] => (n, exponent)
  | d :: ds =>
    match extend? n d with
    | some m => leadingFraction m (exponent - 1) ds
    | none => (n, exponent)

/-- The leading digits of a number and the power of ten that belongs to them. -/
def leading (whole fraction : List Char) (exponent : Int) : Nat × Int :=
  let (n, e) := leadingWhole 0 whole
  let (n, e) := leadingFraction n e fraction
  (n, e + exponent)

/-- A whole number rounded to the nearest double. -/
def rounded (n : Nat) : Nat := Decimal.roundUnits n 1

/-- Whether `n * 10 ^ e` is in the range of doubles, where both factors and then the product are
rounded. -/
def isFinite (n : Nat) (e : Int) : Bool :=
  n == 0 || e < 0
    || (e ≤ 308 && rounded (rounded n * rounded (Nat.pow 10 e.toNat)) < Nat.pow 2 1024)

/-- The leading digits of a written number, and the power of ten that belongs to them. -/
def leadingOfText : Reader (Nat × Int) := do
  let _ ← Decimal.sign
  let whole ← Reader.takeWhile isDigit
  let fraction ← Decimal.fractionDigits
  return leading whole fraction (← Decimal.exponentPart)

/-- Whether a number is in the range of doubles. -/
def inRange : JsonNumber → Bool
  | .integer n =>
    let (digits, e) := leading (Nat.toDigits 10 n.natAbs) [] 0
    isFinite digits e
  | .decimal text => (leadingOfText.run? text.toList).any fun (digits, e) => isFinite digits e

end JsonNumber

namespace Json

mutual

/-- Whether every part of a value has a value. -/
def isReadable : Json → Bool
  | .unpaired => false
  | .number n => n.inRange
  | .array items => itemsReadable items
  | .object ms => membersReadable ms
  | _ => true

/-- Whether every part of every item has a value. -/
def itemsReadable : List Json → Bool
  | [] => true
  | v :: vs => isReadable v && itemsReadable vs

/-- Whether every part of every member has a value. -/
def membersReadable : List (String × Json) → Bool
  | [] => true
  | (_, v) :: ms => isReadable v && membersReadable ms

end

end Json

end Tabular
