/-!
TOML documents.

A document is a list of definitions, each under its full path. A path that leads into an array of
tables has the index of the element after the name of the array. `Document.assign`,
`Document.openTable` and `Document.openElement` add a definition and refuse one that contradicts an
earlier one: a key has one value, a table is opened by one header, and neither keys nor headers
reach into a value.
-/

namespace Tabular

/-- A TOML value. -/
inductive Toml where
  | string (value : String)
  | boolean (value : Bool)
  | integer (value : Int)
  /-- A number with a fraction or an exponent, as it is written. -/
  | float (text : String)
  /-- A date, a time or both, as they are written. -/
  | dateTime (text : String)
  | array (items : List Toml)
  /-- An inline table, with the full keys of its values. -/
  | table (entries : List (List String × Toml))

namespace Toml

/-- How a path came to be defined. -/
inductive Definition where
  /-- By a key with a value. -/
  | value (v : Toml)
  /-- By a header of its own. -/
  | header
  /-- As the beginning of a longer header. -/
  | implied
  /-- As the beginning of a dotted key. -/
  | dotted
  /-- As an array of tables; `last` is the index of its last element. -/
  | elements (last : Nat)

/-- A document under construction. -/
structure Document where
  definitions : List (List String × Definition)
  /-- The path of the table whose keys follow. -/
  current : List String

namespace Document

/-- A document without definitions; its keys belong to the root. -/
def empty : Document := { definitions := [], current := [] }

/-- The definition of a path; the latest one counts. -/
def find? (d : Document) (path : List String) : Option Definition :=
  (d.definitions.find? (·.1 = path)).map (·.2)

/-- The document with one more definition. -/
def define (d : Document) (path : List String) (x : Definition) : Document :=
  { d with definitions := (path, x) :: d.definitions }

/-- The name of an element of an array of tables. -/
def elementName (index : Nat) : String := "#" ++ toString index

/-- Walks the beginning of a dotted key from a table: tables on the way are made, an array of tables
means its last element, and neither a value nor a table with a header of its own may be in the
way. -/
def walkKey (d : Document) (path : List String) : List String → Option (Document × List String)
  | [] => some (d, path)
  | k :: ks =>
    let p := path ++ [k]
    match d.find? p with
    | none => (d.define p .dotted).walkKey p ks
    | some .dotted | some .implied => d.walkKey p ks
    | some (.elements last) => d.walkKey (p ++ [elementName last]) ks
    | some _ => none

/-- Whether a path is a table that dotted keys have made. -/
def isDotted (d : Document) (path : List String) : Bool :=
  match d.find? path with
  | some .dotted => true
  | _ => false

/-- Gives a key a value. The table that a dotted key leads to has to be one that dotted keys have
made. -/
def assignFrom (d : Document) (path key : List String) (v : Toml) : Option Document := do
  let (d, home) ← d.walkKey path key.dropLast
  let p := home ++ key.getLast?.toList
  if (d.find? p).isSome || (1 < key.length && !d.isDotted home) then none
  else some (d.define p (.value v))

/-- Gives a key of the current table a value. -/
def assign (d : Document) (key : List String) (v : Toml) : Option Document :=
  d.assignFrom d.current key v

/-- Walks the beginning of a header from the root. An array of tables means its last element. -/
def walkHeader (d : Document) (path : List String) : List String → Option (Document × List String)
  | [] => some (d, path)
  | k :: ks =>
    let p := path ++ [k]
    match d.find? p with
    | none => (d.define p .implied).walkHeader p ks
    | some (.value _) => none
    | some (.elements last) => d.walkHeader (p ++ [elementName last]) ks
    | some _ => d.walkHeader p ks

/-- Opens the table of a header. -/
def openTable (d : Document) (key : List String) : Option Document := do
  let (d, home) ← d.walkHeader [] key.dropLast
  let p := home ++ key.getLast?.toList
  match d.find? p with
  | none | some .implied => some { d.define p .header with current := p }
  | some _ => none

/-- Opens one more element of an array of tables. -/
def openElement (d : Document) (key : List String) : Option Document := do
  let (d, home) ← d.walkHeader [] key.dropLast
  let p := home ++ key.getLast?.toList
  match d.find? p with
  | none => some { d.define p (.elements 0) with current := p ++ [elementName 0] }
  | some (.elements last) =>
    some { d.define p (.elements (last + 1)) with current := p ++ [elementName (last + 1)] }
  | some _ => none

/-- The definition of a key of the root. -/
def root? (d : Document) (key : String) : Option Definition :=
  d.find? [key]

end Document

/-- Whether the entries of an inline table define each key once. -/
def entriesAgree (entries : List (List String × Toml)) : Bool :=
  (entries.foldlM (fun (d : Document) e => d.assignFrom [] e.1 e.2) Document.empty).isSome

end Toml

end Tabular
