import StackStep.Files.Disk
import StackStep.Registry
import StackStep.Snapshot.Wire

/-!
Stepping a saved state. The file of a run is read, one instruction is carried out on the
state in it, and the state is written back only if the instruction succeeds, under the same
run identifier.
-/

namespace StackStep

namespace DecodeError

def message : DecodeError → Bytes
  | .malformed => "not exactly one well-formed item"
  | .wrongType => "an item of the wrong type"
  | .invalidUtf8 => "text that is not UTF-8"
  | .invalidContent => "an item that its tag or field does not take"

end DecodeError

namespace CommandLine

inductive StepError where
  | unreadable (path : Bytes) (failure : FileFailure)
  | undecodable (path : Bytes) (cause : DecodeError)
  /-- The file holds no state. The path is named only by a step. -/
  | noState (path : Option Bytes) (cause : SnapshotError)
  | terminated (path : Bytes)
  | call (cause : CallError)
  | unwritable (path : Bytes) (failure : FileFailure)
  deriving DecidableEq, Repr

namespace StepError

def message : StepError → Bytes
  | .unreadable path failure =>
    ("cannot read " : Bytes) ++ path ++ (": " : Bytes) ++ failure.message
  | .undecodable path cause =>
    path ++ (": snapshot: unmarshal: " : Bytes) ++ cause.message
  | .noState none cause => cause.message
  | .noState (some path) cause => path ++ (": " : Bytes) ++ cause.message
  | .terminated path => path ++ (": state is terminated" : Bytes)
  | .call cause => cause.message
  | .unwritable path failure =>
    ("cannot write " : Bytes) ++ path ++ (": " : Bytes) ++ failure.message

end StepError

variable {m : Type → Type} [Monad m]

def readSnapshot (disk : Disk m) (path : Bytes) : m (Except StepError Snapshot) := do
  match ← disk.read path with
  | .error failure => return .error (.unreadable path failure)
  | .ok data =>
    match Snapshot.decode data with
    | .error cause => return .error (.undecodable path cause)
    | .ok snapshot => return .ok snapshot

def writeSnapshot (disk : Disk m) (path : Bytes) (snapshot : Snapshot) :
    m (Except StepError Unit) := do
  match ← disk.write path snapshot.encode with
  | .error failure => return .error (.unwritable path failure)
  | .ok () => return .ok ()

/-- Starts a run: saves the empty state under a new identifier. -/
def createRun (disk : Disk m) (path : Bytes) (runId : RunId) : m (Except StepError Unit) :=
  writeSnapshot disk path (.ofState runId {})

/-- The state saved at a path. -/
def loadState (disk : Disk m) (path : Bytes) : m (Except StepError State) := do
  match ← readSnapshot disk path with
  | .error e => return .error e
  | .ok snapshot =>
    match snapshot.toState with
    | .error cause => return .error (.noState none cause)
    | .ok st => return .ok st

/-- What one step makes of a snapshot: the state after it. -/
def stepSnapshot (r : Registry) (path name arg : Bytes) (snapshot : Snapshot) :
    Except StepError State :=
  match snapshot.toState with
  | .error cause => .error (.noState (some path) cause)
  | .ok st =>
    if st.terminated then .error (.terminated path)
    else
      match r.call name arg st with
      | .failed cause _ => .error (.call cause)
      | .done st' => .ok st'

/-- Carries out one instruction on the state saved at a path. -/
def applyOpcode (disk : Disk m) (path : Bytes) (r : Registry) (name arg : Bytes) :
    m (Except StepError State) := do
  match ← readSnapshot disk path with
  | .error e => return .error e
  | .ok snapshot =>
    match stepSnapshot r path name arg snapshot with
    | .error e => return .error e
    | .ok st =>
      match ← writeSnapshot disk path (.ofState snapshot.runId st) with
      | .error e => return .error e
      | .ok () => return .ok st

end CommandLine

end StackStep
