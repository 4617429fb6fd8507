import StackStep.RunId
import StackStep.State

/-!
A snapshot is a state laid out for saving, under the identifier of the run it belongs to.
Its fields hold whatever a file may hold, so not every snapshot has a state: `toState`
checks the version, the pointer and the kinds of the saved values, in this order, and
reports the first that does not hold.
-/

namespace StackStep

/-- A saved value. The kind says which of the two fields counts. -/
structure Slot where
  kind : Kind := .integer
  int : Int64 := 0
  text : Bytes := []
  deriving DecidableEq, Repr

namespace Slot

def ofValue : Value → Slot
  | .integer n => { kind := .integer, int := n }
  | .text t => { kind := .text, text := t }

def toValue? (s : Slot) : Option Value :=
  if s.kind = .integer then some (.integer s.int)
  else if s.kind = .text then some (.text s.text)
  else none

@[simp] theorem toValue?_ofValue (v : Value) : (ofValue v).toValue? = some v := by
  cases v <;> rfl

end Slot

/-- A saved variable. -/
structure Binding where
  name : Bytes := []
  value : Slot := {}
  deriving DecidableEq, Repr

structure Snapshot where
  version : UInt8 := 0
  runId : RunId := .zero
  pointer : Int64 := 0
  terminated : Bool := false
  line : Int64 := 0
  /-- The operands from the bottom to the top. A file may hold none at all, which is
  written differently from an empty stack and means the same. -/
  stack : Option (List Slot) := none
  env : List Binding := []
  deriving DecidableEq, Repr

inductive SnapshotError where
  | versionMismatch (got : UInt8)
  | negativePointer (pointer : Int64)
  | stackKind (index : Nat) (kind : Kind)
  | envKind (name : Bytes) (kind : Kind)
  deriving DecidableEq, Repr

namespace Snapshot

/-- The version of the layout that is written and accepted. -/
def currentVersion : UInt8 := 1

def ofState (runId : RunId) (st : State) : Snapshot where
  version := currentVersion
  runId := runId
  pointer := st.pointer
  terminated := st.terminated
  line := st.line
  stack := some (st.stack.reverse.map Slot.ofValue)
  env := st.env.entries.map fun b => { name := b.1, value := .ofValue b.2 }

/-- The values of a saved stack whose first slot has position `index`. -/
def stackValues (index : Nat) : List Slot → Except SnapshotError (List Value)
  | [] => .ok []
  | slot :: slots =>
    match slot.toValue? with
    | none => .error (.stackKind index slot.kind)
    | some v => do
      let vs ← stackValues (index + 1) slots
      return v :: vs

def envValues : List Binding → Except SnapshotError (List (Bytes × Value))
  | [] => .ok []
  | b :: bs =>
    match b.value.toValue? with
    | none => .error (.envKind b.name b.value.kind)
    | some v => do
      let vs ← envValues bs
      return (b.name, v) :: vs

/-- The state that was saved. Of two variables of one name the later counts. -/
def toState (s : Snapshot) : Except SnapshotError State :=
  if s.version ≠ currentVersion then .error (.versionMismatch s.version)
  else if s.pointer < 0 then .error (.negativePointer s.pointer)
  else do
    let values ← stackValues 0 (s.stack.getD [])
    let bindings ← envValues s.env
    return {
      stack := values.reverse
      pointer := s.pointer
      terminated := s.terminated
      line := s.line
      env := .ofList bindings }

end Snapshot

namespace SnapshotError

def message : SnapshotError → Bytes
  | .versionMismatch got =>
    ("snapshot version mismatch: got " : Bytes) ++ Bytes.ofNat got.toNat ++ (", want " : Bytes) ++
      Bytes.ofNat Snapshot.currentVersion.toNat
  | .negativePointer pointer =>
    ("corrupt snapshot: negative pointer " : Bytes) ++ Bytes.ofInt64 pointer
  | .stackKind index kind =>
    ("stack[" : Bytes) ++ Bytes.ofNat index ++
      ("]: corrupt snapshot: unknown value kind " : Bytes) ++ Bytes.ofNat kind.code.toNat
  | .envKind name kind =>
    ("env " : Bytes) ++ Text.quote name ++ (": corrupt snapshot: unknown value kind " : Bytes) ++
      Bytes.ofNat kind.code.toNat

end SnapshotError

end StackStep
