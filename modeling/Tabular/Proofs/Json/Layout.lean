import Tabular.Json.Printer

/-!
The two ways of writing JSON.

A `Layout` says what stands before the items of an array and the members of an object, and after a
colon. Both ways of writing are layouts: every item on an indented line of its own
(`prettyChars_eq`), and everything on one line (`compactChars_eq`).
-/

namespace Tabular.Json

/-- Where a text has blanks. -/
structure Layout where
  /-- What stands before an item at a level of nesting, and before the bracket after the last. -/
  line : Nat → List Char
  /-- What stands between a colon and the value after it. -/
  space : List Char

namespace Layout

/-- Each item on a line of its own. -/
def indented : Layout := { line := newLine, space := [' '] }

/-- No blanks. -/
def dense : Layout := { line := fun _ => [], space := [] }

/-- Parts between two brackets. -/
def enclosed (l : Layout) (opening closing : Char) (level : Nat) (parts : List (List Char)) :
    List Char :=
  match parts with
  | [] => [opening, closing]
  | _ =>
    opening :: l.line (level + 1) ++ separated (',' :: l.line (level + 1)) parts
      ++ l.line level ++ [closing]

mutual

/-- A value in a layout. -/
def chars (l : Layout) (level : Nat) : Json → List Char
  | .null => "null".toList
  | .bool true => "true".toList
  | .bool false => "false".toList
  | .number n => numberText n
  | .string s => quote s
  | .unpaired => "null".toList
  | .array items => l.enclosed '[' ']' level (itemChars l (level + 1) items)
  | .object ms => l.enclosed '\x7b' '\x7d' level (memberChars l (level + 1) ms)

/-- The items of an array. -/
def itemChars (l : Layout) (level : Nat) : List Json → List (List Char)
  | [] => []
  | v :: vs => chars l level v :: itemChars l level vs

/-- The members of an object. -/
def memberChars (l : Layout) (level : Nat) : List (String × Json) → List (List Char)
  | [] => []
  | (k, v) :: ms => (quote k ++ ':' :: l.space ++ chars l level v) :: memberChars l level ms

end

end Layout

mutual

theorem prettyChars_eq (level : Nat) : ∀ v, prettyChars level v = Layout.indented.chars level v
  | .null => rfl
  | .bool true => rfl
  | .bool false => rfl
  | .number _ => rfl
  | .string _ => rfl
  | .unpaired => rfl
  | .array items => by
    rw [prettyChars, Layout.chars, prettyItems_eq (level + 1) items]
    cases Layout.indented.itemChars (level + 1) items <;> rfl
  | .object ms => by
    rw [prettyChars, Layout.chars, prettyMembers_eq (level + 1) ms]
    cases Layout.indented.memberChars (level + 1) ms <;> rfl

theorem prettyItems_eq (level : Nat) :
    ∀ vs, prettyItems level vs = Layout.indented.itemChars level vs
  | [] => rfl
  | v :: vs => by
    rw [prettyItems, Layout.itemChars, prettyChars_eq level v, prettyItems_eq level vs]

theorem prettyMembers_eq (level : Nat) :
    ∀ ms, prettyMembers level ms = Layout.indented.memberChars level ms
  | [] => rfl
  | (k, v) :: ms => by
    rw [prettyMembers, Layout.memberChars, prettyChars_eq level v, prettyMembers_eq level ms]
    simp [Layout.indented]

end

theorem separated_dense {opening closing : Char} {level : Nat} (parts : List (List Char)) :
    Layout.dense.enclosed opening closing level parts =
      opening :: separated [','] parts ++ [closing] := by
  cases parts <;> simp [Layout.enclosed, Layout.dense, separated]

mutual

theorem compactChars_eq (level : Nat) : ∀ v, compactChars v = Layout.dense.chars level v
  | .null => rfl
  | .bool true => rfl
  | .bool false => rfl
  | .number _ => rfl
  | .string _ => rfl
  | .unpaired => rfl
  | .array items => by
    rw [compactChars, Layout.chars, separated_dense, compactItems_eq (level + 1) items]
  | .object ms => by
    rw [compactChars, Layout.chars, separated_dense, compactMembers_eq (level + 1) ms]

theorem compactItems_eq (level : Nat) :
    ∀ vs, compactItems vs = Layout.dense.itemChars level vs
  | [] => rfl
  | v :: vs => by
    rw [compactItems, Layout.itemChars, compactChars_eq level v, compactItems_eq level vs]

theorem compactMembers_eq (level : Nat) :
    ∀ ms, compactMembers ms = Layout.dense.memberChars level ms
  | [] => rfl
  | (k, v) :: ms => by
    rw [compactMembers, Layout.memberChars, compactChars_eq level v, compactMembers_eq level ms]
    simp [Layout.dense]

end

end Tabular.Json
