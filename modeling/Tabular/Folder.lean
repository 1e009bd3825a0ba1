import Tabular.Error
import Tabular.Keyed
import Tabular.Text.Quoted

/-!
Folders.

A `Folder` is a tree of directories with text files, held as a map from the path of each entry to
the entry; the root itself is always there. A `Route` is a path as it is written, with steps up and
steps that stay; `locate` walks it from the root and tells at which path it ends or how a step of
the walk fails. No route leaves the folder: the parent of the root is the root. A directory may be
read-only; then the files in it can be read and written, but none is made or removed there.
-/

namespace Tabular

/-- The names on the way from the root to an entry. -/
abbrev Path := List String

namespace Path

/-- A path as text. -/
def text (p : Path) : String := String.intercalate "/" p

/-- One step from a path: an empty step and `.` stay, `..` leads to the parent directory, and every
other step is a name. -/
def step (p : Path) (s : String) : Path :=
  if s = "" ∨ s = "." then p
  else if s = ".." then p.dropLast
  else p ++ [s]

end Path

/-- A path as it is written: steps from the root. -/
abbrev Route := List String

namespace Route

/-- The steps of a text. -/
def ofText (text : String) : Route :=
  (Text.splitAll '/' text.toList).map String.ofList

/-- The route that a text means at the end of a route. A text that starts with a slash starts from
the root. -/
def join (r : Route) (text : String) : Route :=
  if text.startsWith "/" then ofText text else r ++ ofText text

/-- The most bytes that a name may have. -/
def maxNameLength : Nat := 255

/-- The most bytes that a route may have. -/
def maxLength : Nat := 4095

/-- Why a route cannot be walked in any folder, if it cannot. -/
def refusal? (r : Route) : Option IoKind :=
  if r.any fun s => s.toList.any (· == '\x00') then some .invalidInput
  else if maxLength < (String.intercalate "/" r).utf8ByteSize then some .invalidFilename
  else none

end Route

/-- What stands at a path. -/
inductive Entry where
  | file (text : String)
  | directory
  deriving DecidableEq, Repr

/-- A tree of directories with text files. -/
structure Folder where
  entries : Keyed Entry
  /-- The paths of the read-only directories, as texts. -/
  readOnly : List String
  deriving DecidableEq

namespace Folder

/-- The root alone. -/
def empty : Folder := { entries := Keyed.empty, readOnly := [] }

/-- What stands at a path, if anything does. -/
def entryAt? (f : Folder) (p : Path) : Option Entry :=
  if p = [] then some .directory else f.entries.get? p.text

/-- Puts an entry at a path. -/
def put (f : Folder) (p : Path) (e : Entry) : Folder :=
  { f with entries := f.entries.insert p.text e }

/-- Takes the entry at a path out. -/
def erase (f : Folder) (p : Path) : Folder :=
  { f with entries := f.entries.erase p.text }

/-- Whether the directory that a path lies in is read-only. -/
def isFixed (f : Folder) (p : Path) : Bool := f.readOnly.contains (Path.text p.dropLast)

/-- The folder after an entry is made or removed at a path, if that may be done. -/
def changing (f : Folder) (p : Path) (changed : Folder) : Except IoKind Folder :=
  if f.isFixed p then .error .permissionDenied else .ok changed

/-- Walks from a path along further steps. Each of them has to start in a directory. -/
def walk (f : Folder) (p : Path) : Route → Except IoKind Path
  | [] => .ok p
  | s :: steps =>
    match f.entryAt? p with
    | none => .error .notFound
    | some (.file _) => .error .notADirectory
    | some .directory =>
      if Route.maxNameLength < s.utf8ByteSize then .error .invalidFilename
      else f.walk (p.step s) steps

/-- The path at which a route ends, whether anything stands there or not. -/
def locate (f : Folder) (r : Route) : Except IoKind Path :=
  match r.refusal? with
  | some kind => .error kind
  | none => f.walk [] r

/-- What stands at the end of a route. -/
def stat (f : Folder) (r : Route) : Except IoKind Entry := do
  match f.entryAt? (← f.locate r) with
  | some e => .ok e
  | none => .error .notFound

/-- Whether anything stands at the end of a route. A walk that fails for another reason than a
missing entry leaves that open. -/
def exists? (f : Folder) (r : Route) : Except IoKind Bool :=
  match f.stat r with
  | .ok _ => .ok true
  | .error .notFound => .ok false
  | .error kind => .error kind

/-- The text of a file. -/
def textAt (f : Folder) (r : Route) : Except IoKind String := do
  match ← f.stat r with
  | .file text => .ok text
  | .directory => .error .isADirectory

/-- Writes a file, new or in place of an earlier text. Its directory has to be there. -/
def write (f : Folder) (r : Route) (text : String) : Except IoKind Folder := do
  let p ← f.locate r
  match f.entryAt? p with
  | some .directory => .error .isADirectory
  | some (.file _) => .ok (f.put p (.file text))
  | none => f.changing p (f.put p (.file text))

/-- Makes the directories from a path along further steps that are not there yet. -/
def makeFrom (f : Folder) (p : Path) : Route → Except IoKind Folder
  | [] => .ok f
  | s :: steps =>
    if Route.maxNameLength < s.utf8ByteSize then .error .invalidFilename
    else
      match f.entryAt? (p.step s) with
      | none => do
        let g ← f.changing (p.step s) (f.put (p.step s) .directory)
        g.makeFrom (p.step s) steps
      | some .directory => f.makeFrom (p.step s) steps
      | some (.file _) => .error (if steps = [] then .alreadyExists else .notADirectory)

/-- Makes a directory and those that it lies in, as far as they are not there yet. -/
def makeDirectories (f : Folder) (r : Route) : Except IoKind Folder :=
  match r.refusal? with
  | some kind => .error kind
  | none => f.makeFrom [] r

/-- Removes a file. -/
def remove (f : Folder) (r : Route) : Except IoKind Folder := do
  let p ← f.locate r
  match f.entryAt? p with
  | none => .error .notFound
  | some e =>
    let g ← f.changing p (f.erase p)
    if e = .directory then .error .isADirectory else .ok g

/-- The folder with an entry at the end of a route, in directories that are made where they are
missing. Where they cannot be made, the folder stays as it is. -/
def place (f : Folder) (r : Route) (e : Entry) : Folder :=
  match f.makeDirectories r.dropLast with
  | .error _ => f
  | .ok g =>
    match g.locate r with
    | .ok p => g.put p e
    | .error _ => f

/-- The paths of all files, in ascending order. -/
def files (f : Folder) : List String :=
  f.entries.entries.filterMap fun e =>
    match e.2 with
    | .file _ => some e.1
    | .directory => none

end Folder

end Tabular
