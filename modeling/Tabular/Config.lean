import Tabular.Folder
import Tabular.Toml.Reader

/-!
Configuration.

A configuration is read from a TOML file. Keys that are missing take their defaults, keys that are
not known are ignored, and a value of another type than its key's makes the whole file invalid.
-/

namespace Tabular

/-- The settings of the program. -/
structure Config where
  /-- The directory of the snapshots. -/
  dataDir : String
  /-- The address that a server listens on. -/
  bindAddress : String
  /-- Which log records are written. -/
  logFilter : String
  /-- Whether snapshots are written and read. -/
  persist : Bool
  deriving DecidableEq, Repr

/-- Why a configuration cannot be read. -/
inductive ConfigError where
  /-- The file cannot be read. -/
  | io (kind : IoKind)
  /-- The file holds no configuration. -/
  | malformed (path : String)
  deriving DecidableEq, Repr

/-- The wording of a configuration error. -/
def ConfigError.message : ConfigError → String
  | .io kind => "IO error: " ++ kind.message
  | .malformed path => "Configuration error: " ++ path ++ ": the file holds no configuration"

namespace Config

/-- The file that is read where no other one is named. -/
def defaultFile : String := "nue.toml"

/-- The directory of the snapshots inside the directory for the data of programs. -/
def defaultDataDir (programData : Option String) : String :=
  programData.getD "." ++ "/nue"

/-- The settings without a file. -/
def default (dataDir : String) : Config :=
  { dataDir, bindAddress := "127.0.0.1:7070", logFilter := "info", persist := true }

/-- A text setting. -/
def stringSetting (d : Toml.Document) (key missing : String) : Option String :=
  match d.root? key with
  | none => some missing
  | some (.value (.string s)) => some s
  | some _ => none

/-- A setting that is on or off. -/
def boolSetting (d : Toml.Document) (key : String) (missing : Bool) : Option Bool :=
  match d.root? key with
  | none => some missing
  | some (.value (.boolean b)) => some b
  | some _ => none

/-- The settings of a document. -/
def ofDocument? (base : Config) (d : Toml.Document) : Option Config := do
  return {
    dataDir := ← stringSetting d "data_dir" base.dataDir
    bindAddress := ← stringSetting d "bind_address" base.bindAddress
    logFilter := ← stringSetting d "log_filter" base.logFilter
    persist := ← boolSetting d "persist" base.persist }

/-- The settings of a text. -/
def ofText? (base : Config) (text : String) : Option Config :=
  (Toml.parse text).bind (ofDocument? base)

/-- The settings of a file that is named in a directory. -/
def load (base : Config) (folder : Folder) (here : Route) (path : String) :
    Except ConfigError Config :=
  match folder.textAt (here.join path) with
  | .error kind => .error (.io kind)
  | .ok text =>
    match ofText? base text with
    | some c => .ok c
    | none => .error (.malformed path)

/-- The settings of a file that is named in a directory, or the defaults where there is no such
file. -/
def loadOrDefault (base : Config) (folder : Folder) (here : Route) (path : String) :
    Except ConfigError Config :=
  match folder.exists? (here.join path) with
  | .ok true => load base folder here path
  | _ => .ok base

end Config

end Tabular
