import Tabular.Json.Basic

/-!
Writing JSON.

`Json.compact` writes a value on one line without blanks. `Json.pretty` gives each item and each
member a line of its own, indented by two spaces per level; empty arrays and objects stay on one
line. In a string the quote, the backslash and the control characters below U+0020 are escaped,
every other character stands for itself. What has no value is written as null.
-/

namespace Tabular

namespace Json

/-- A hexadecimal digit in lower case. -/
def hexDigit (n : Nat) : Char :=
  if n < 10 then Char.ofNat (n + 0x30) else Char.ofNat (n + 0x57)

/-- A character as it is written inside a string. -/
def escapeChar (c : Char) : List Char :=
  if c = '"' then ['\\', '"']
  else if c = '\\' then ['\\', '\\']
  else if c = '\n' then ['\\', 'n']
  else if c = '\r' then ['\\', 'r']
  else if c = '\t' then ['\\', 't']
  else if c.toNat = 8 then ['\\', 'b']
  else if c.toNat = 12 then ['\\', 'f']
  else if c.toNat < 0x20 then
    ['\\', 'u', '0', '0', hexDigit (c.toNat / 16), hexDigit (c.toNat % 16)]
  else [c]

/-- A text between quotes. -/
def quote (s : String) : List Char :=
  '"' :: s.toList.flatMap escapeChar ++ ['"']

/-- The digits of a number. -/
def numberText : JsonNumber → List Char
  | .integer n => (toString n).toList
  | .decimal t => t.toList

/-- Parts with a separator between two of them. -/
def separated (separator : List Char) : List (List Char) → List Char
  | [] => []
  | [p] => p
  | p :: ps => p ++ separator ++ separated separator ps

mutual

/-- A value on one line. -/
def compactChars : Json → List Char
  | .null => "null".toList
  | .bool true => "true".toList
  | .bool false => "false".toList
  | .number n => numberText n
  | .string s => quote s
  | .unpaired => "null".toList
  | .array items => '[' :: separated [','] (compactItems items) ++ [']']
  | .object ms => '{' :: separated [','] (compactMembers ms) ++ ['}']

/-- The items of an array. -/
def compactItems : List Json → List (List Char)
  | [] => []
  | v :: vs => compactChars v :: compactItems vs

/-- The members of an object. -/
def compactMembers : List (String × Json) → List (List Char)
  | [] => []
  | (k, v) :: ms => (quote k ++ ':' :: compactChars v) :: compactMembers ms

end

/-- A value on one line. -/
def compact (v : Json) : String :=
  String.ofList (compactChars v)

/-- The start of a line at a level of indentation. -/
def newLine (level : Nat) : List Char :=
  '\n' :: List.replicate (2 * level) ' '

/-- Lines between two brackets, one level deeper than the brackets; nothing between them where there
are no lines. -/
def block (opening closing : Char) (level : Nat) (parts : List (List Char)) : List Char :=
  match parts with
  | [] => [opening, closing]
  | _ =>
    opening :: newLine (level + 1) ++ separated (',' :: newLine (level + 1)) parts
      ++ newLine level ++ [closing]

mutual

/-- A value on lines of its own. -/
def prettyChars (level : Nat) : Json → List Char
  | .array items => block '[' ']' level (prettyItems (level + 1) items)
  | .object ms => block '{' '}' level (prettyMembers (level + 1) ms)
  | .null => "null".toList
  | .bool true => "true".toList
  | .bool false => "false".toList
  | .number n => numberText n
  | .string s => quote s
  | .unpaired => "null".toList

/-- The items of an array. -/
def prettyItems (level : Nat) : List Json → List (List Char)
  | [] => []
  | v :: vs => prettyChars level v :: prettyItems level vs

/-- The members of an object. -/
def prettyMembers (level : Nat) : List (String × Json) → List (List Char)
  | [] => []
  | (k, v) :: ms => (quote k ++ ':' :: ' ' :: prettyChars level v) :: prettyMembers level ms

end

/-- A value on lines of its own, without a line end at the end. -/
def pretty (v : Json) : String :=
  String.ofList (prettyChars 0 v)

end Json

end Tabular
