import Tabular.Json.Basic
import Tabular.Keyed

/-!
Reading domain values off JSON values.

A record is read from an object or from an array of its fields in order. An object may have members
that the record does not know, which are ignored, but none of its own twice; an array may not be
longer than the record. A map is read from an object, where of two members of one name the later one
counts.
-/

namespace Tabular.Json

/-- A text. -/
def string? : Json → Option String
  | .string s => some s
  | _ => none

/-- A text or null. -/
def nullableString? : Json → Option (Option String)
  | .null => some none
  | .string s => some (some s)
  | _ => none

/-- A count: a whole number from 0 to 2^64 - 1, written without fraction and exponent. -/
def count? : Json → Option Nat
  | .number (.integer n) => if 0 ≤ n ∧ n < 18446744073709551616 then some n.toNat else none
  | _ => none

/-- A list. -/
def list? {α : Type} (item : Json → Option α) : Json → Option (List α)
  | .array items => items.mapM item
  | _ => none

/-- A map. -/
def keyed? {α : Type} (value : Json → Option α) : Json → Option (Keyed α)
  | .object ms => do
    let entries ← ms.mapM fun m => do return (m.1, ← value m.2)
    return Keyed.ofList entries
  | _ => none

/-- The only member of a name; `some none` where there is none, `none` where there are several. -/
def onlyMember? (ms : List (String × Json)) (name : String) : Option (Option Json) :=
  match ms.filter (·.1 = name) with
  | [] => some none
  | [m] => some (some m.2)
  | _ => none

/-- The fields of a record in the order of their names, each with its value if it is there. -/
def fields? (names : List String) : Json → Option (List (Option Json))
  | .object ms => names.mapM (onlyMember? ms)
  | .array items =>
    if items.length ≤ names.length then
      some ((items.map some) ++ List.replicate (names.length - items.length) none)
    else none
  | _ => none

/-- A field that has to be there. -/
def required? {α : Type} (decode : Json → Option α) (field : Option Json) : Option α :=
  field.bind decode

/-- A field with a value to take where it is not there. -/
def defaulted? {α : Type} (decode : Json → Option α) (missing : α) : Option Json → Option α
  | none => some missing
  | some v => decode v

/-- A text that may be null or not be there. -/
def optionalString? : Option Json → Option (Option String) :=
  defaulted? nullableString? none

end Tabular.Json
