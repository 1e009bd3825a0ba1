/-!
JSON values.

An object keeps its members in the order in which they stand and may hold a name twice; what a
repeated name means is decided by whoever reads the object. A number that is written as an integer
is its value, every other number is kept as it is written. A text that writes half of a surrogate
pair is well-formed but stands for no characters.
-/

namespace Tabular

/-- A JSON number. -/
inductive JsonNumber where
  /-- Written with digits alone and perhaps a minus sign. -/
  | integer (value : Int)
  /-- Written with a fraction or an exponent, or as the negative zero. -/
  | decimal (text : String)
  deriving DecidableEq, Repr

/-- A JSON value. -/
inductive Json where
  | null
  | bool (value : Bool)
  | number (value : JsonNumber)
  | string (value : String)
  | array (items : List Json)
  | object (members : List (String × Json))
  /-- A string that writes half of a surrogate pair, or an object with such a name: a well-formed
  text without a value. -/
  | unpaired

namespace Json

/-- A natural number as JSON. -/
def ofNat (n : Nat) : Json := .number (.integer n)

/-- A text that may be missing, with null for none. -/
def ofOption : Option String → Json
  | some s => .string s
  | none => .null

/-- A list of texts as JSON. -/
def ofStrings (l : List String) : Json := .array (l.map .string)

/-- Puts a member into a list of members that is in ascending order of names. -/
def insertMember (m : String × Json) : List (String × Json) → List (String × Json)
  | [] => [m]
  | n :: ms => if m.1 < n.1 then m :: n :: ms else n :: insertMember m ms

mutual

/-- The value with the members of every object in ascending order of names. -/
def sortMembers : Json → Json
  | .array items => .array (sortItems items)
  | .object ms => .object (sortFields ms)
  | v => v

/-- The items of an array, each with its members in order. -/
def sortItems : List Json → List Json
  | [] => []
  | v :: vs => sortMembers v :: sortItems vs

/-- The members of an object in order, each value with its own members in order. -/
def sortFields : List (String × Json) → List (String × Json)
  | [] => []
  | (k, v) :: ms => insertMember (k, sortMembers v) (sortFields ms)

end

mutual

/-- How deeply arrays and objects are nested. -/
def depth : Json → Nat
  | .array items => depthItems items + 1
  | .object ms => depthMembers ms + 1
  | _ => 0

/-- The depth of the deepest item. -/
def depthItems : List Json → Nat
  | [] => 0
  | v :: vs => max (depth v) (depthItems vs)

/-- The depth of the deepest member. -/
def depthMembers : List (String × Json) → Nat
  | [] => 0
  | (_, v) :: ms => max (depth v) (depthMembers ms)

end

end Json

end Tabular
