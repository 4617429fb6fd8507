import StackStep.Files.Disk
import StackStep.Path
import StackStep.Text.Fold
import StackStep.Toml.Reader
import StackStep.Toml.Table

/-!
The settings: where the log goes and how much it says, where the state is saved, and the
name of the editor service. They are read from the file `dbn.toml` of the nearest directory
that has one, going up from where the search starts. Relative paths in that file start from
its directory.
-/

namespace StackStep

structure Config where
  verbosity : Int64 := 0
  /-- The log file as it is given, empty for none. -/
  logFile : Bytes := []
  /-- The snapshot file as it is given. -/
  snapshotPath : Bytes := []
  serverName : Bytes := []
  /-- The directory of the file that was read, empty if none was. -/
  directory : Bytes := []
  deriving DecidableEq, Repr

inductive ConfigError where
  | unreadable (path : Bytes) (failure : FileFailure)
  | malformed (path : Bytes)
  deriving DecidableEq, Repr

def ConfigError.message : ConfigError → Bytes
  | .unreadable path failure =>
    ("cannot read " : Bytes) ++ path ++ (": " : Bytes) ++ failure.message
  | .malformed path =>
    ("parse error in " : Bytes) ++ path ++ (": not a settings document" : Bytes)

namespace Config

def fileName : Bytes := "dbn.toml"
def defaultSnapshotPath : Bytes := "state.dbns"
def defaultServerName : Bytes := "dbn-lsp"

/-- Fills in what must not be empty. -/
def withDefaults (c : Config) : Config :=
  { c with
    snapshotPath := if c.snapshotPath = [] then defaultSnapshotPath else c.snapshotPath
    serverName := if c.serverName = [] then defaultServerName else c.serverName }

/-- The settings where there is no file. -/
def default : Config := ({} : Config).withDefaults

/-- A path of the settings, from their directory if it is relative. -/
def resolve (c : Config) (path : Bytes) : Bytes :=
  if c.directory = [] ∨ Path.isAbsolute path then path else Path.join c.directory path

def resolvedSnapshotPath (c : Config) : Bytes := c.resolve c.snapshotPath

def resolvedLogFile? (c : Config) : Option Bytes :=
  if c.logFile = [] then none else some (c.resolve c.logFile)

/-! ### Settings from tables -/

/-- Whether a key names a field, whatever the case of its letters. -/
def isField (field key : Bytes) : Bool := Text.sameFolded field key

def stringOf? : Toml.Value → Option Bytes
  | .string t => some t
  | _ => none

def integerOf? : Toml.Value → Option Int64
  | .integer n => some n
  | _ => none

def tableOf? : Toml.Value → Option Toml.Table
  | .table t => some t
  | _ => none

/-- Takes one entry of a section. Unknown entries are passed over. -/
def takeEntry (sectionName : Bytes) (c : Config) (entry : Bytes × Toml.Value) : Option Config :=
  let key := entry.1
  if isField "log" sectionName && isField "verbosity" key then do
    return { c with verbosity := ← integerOf? entry.2 }
  else if isField "log" sectionName && isField "file" key then do
    return { c with logFile := ← stringOf? entry.2 }
  else if isField "snapshot" sectionName && isField "path" key then do
    return { c with snapshotPath := ← stringOf? entry.2 }
  else if isField "lsp" sectionName && isField "name" key then do
    return { c with serverName := ← stringOf? entry.2 }
  else some c

def isSection (key : Bytes) : Bool :=
  isField "log" key || isField "snapshot" key || isField "lsp" key

/-- Takes one section. A section of a known name has to be a table. -/
def takeSection (c : Config) (entry : Bytes × Toml.Value) : Option Config :=
  if isSection entry.1 then do
    let t ← tableOf? entry.2
    t.foldlM (takeEntry entry.1) c
  else some c

/-- The settings that a document gives, nothing filled in. -/
def parse? (data : Bytes) : Option Config := do
  let document ← Toml.Document.read? data
  let table ← document.table?
  table.foldlM takeSection {}

/-! ### Loading -/

variable {m : Type → Type} [Monad m]

/-- Reads the settings of a directory. -/
def load (disk : Disk m) (dir : Bytes) : m (Except ConfigError Config) := do
  let path := Path.join dir fileName
  match ← disk.read path with
  | .error failure => return .error (.unreadable path failure)
  | .ok data =>
    match parse? data with
    | none => return .error (.malformed path)
    | some c =>
      let cwd ← disk.workingDirectory
      return .ok { c with directory := Path.absolute cwd dir }.withDefaults

/-- The directory with these names, from the root. -/
def directoryOf (names : List Bytes) : Bytes :=
  Path.separator :: Bytes.join [Path.separator] names

/-- Reads the settings of the nearest directory that has any, of those that names lead
through, the last name first. -/
def loadNearest (disk : Disk m) : List Bytes → m (Except ConfigError (Option Config))
  | [] => do
    if ← disk.pathExists (Path.join (directoryOf []) fileName) then
      return (← load disk (directoryOf [])).map some
    else return .ok none
  | name :: above => do
    let dir := directoryOf (name :: above).reverse
    if ← disk.pathExists (Path.join dir fileName) then return (← load disk dir).map some
    else loadNearest disk above

/-- Reads the nearest settings, going up from a directory. -/
def find (disk : Disk m) (start : Bytes) : m (Except ConfigError (Option Config)) := do
  let cwd ← disk.workingDirectory
  loadNearest disk (Path.names (Path.absolute cwd start)).reverse

end Config

end StackStep
