import StackStep.CommandLine.Options
import StackStep.CommandLine.Step
import StackStep.Config
import StackStep.Editor.Service
import StackStep.Listing

/-!
A whole run of the command: its options are read, then the settings, then the log is
opened, and then one thing is done. Of several that are asked for, the first of serving,
listing, starting a run, and stepping is done, and if none is, the state is shown.
-/

namespace StackStep.CommandLine

/-- What a run leaves behind, apart from files. -/
structure Output where
  exitCode : Nat := 0
  stdout : Bytes := []
  stderr : Bytes := []
  deriving DecidableEq, Repr

/-- How a run ends: at once, or by serving an editor until it is told to stop. -/
inductive Ending where
  | done (output : Output)
  | serve (service : Editor.Service)

def failure (message : Bytes) : Output where
  exitCode := 1
  stderr := ("Error: " : Bytes) ++ message ++ ("\n" : Bytes)

def success (text : Bytes) : Output where
  stdout := text

/-- A state on a line of its own, or why there is none. -/
def report : Except StepError State → Output
  | .ok st => success (st.render ++ ("\n" : Bytes))
  | .error e => failure e.message

/-- The verbosity in force: the option, or the setting where the option is negative. -/
def effectiveVerbosity (o : Options) (c : Config) : Int64 :=
  if 0 ≤ o.verbosity then o.verbosity else c.verbosity

/-- Below this verbosity nothing is logged at all. -/
def leastVerbosity : Int64 := -3

variable {m : Type → Type} [Monad m]

/-- Opens the log file, if there is one and anything may be logged. -/
def openLog (disk : Disk m) (o : Options) (c : Config) : m (Option Output) := do
  match c.resolvedLogFile? with
  | none => return none
  | some path =>
    if effectiveVerbosity o c < leastVerbosity then return none
    else
      match ← disk.touch path with
      | .ok () => return none
      | .error e =>
        return some {
          exitCode := 1
          stderr := ("log file error: " : Bytes) ++ e.message ++ ("\n" : Bytes) }

/-- The file of the state: the option, or the setting where there is none. -/
def statePath (o : Options) (c : Config) : Bytes :=
  if o.state = [] then c.resolvedSnapshotPath else o.state

/-- Does what the options ask for. A run that is started gets the identifier `fresh`. -/
def act (disk : Disk m) (fresh : RunId) (o : Options) (c : Config) : m Ending := do
  let path := statePath o c
  if o.lsp then return .serve (.create .builtin c.serverName)
  else if o.list then
    match Listing.list .builtin o.format with
    | .ok text => return .done (success text)
    | .error message => return .done (failure message)
  else if o.new then
    match ← createRun disk path fresh with
    | .ok () =>
      return .done (success
        (("run " : Bytes) ++ fresh.render ++ (" -> " : Bytes) ++ path ++ ("\n" : Bytes)))
    | .error e => return .done (failure e.message)
  else if o.op ≠ [] then return .done (report (← applyOpcode disk path .builtin o.op o.arg))
  else return .done (report (← loadState disk path))

/-- A run of the command with the given arguments. -/
def run (disk : Disk m) (fresh : RunId) (args : List Bytes) : m Ending := do
  match Options.read args with
  | .error e => return .done { exitCode := e.exitCode, stderr := e.message ++ usage }
  | .ok o =>
    match ← Config.find disk o.config with
    | .error e => return .done (failure e.message)
    | .ok found =>
      let c := found.getD .default
      match ← openLog disk o c with
      | some output => return .done output
      | none => act disk fresh o c

end StackStep.CommandLine
