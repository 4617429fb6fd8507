import StackStep.Opcode
import StackStep.State
import StackStep.Text.Numeral

/-!
Why an instruction fails, and what it leaves when it does. A failing instruction may
already have changed the state, so an outcome carries the state in both cases.
-/

namespace StackStep

inductive Fault where
  /-- The stack is too short. The depths needed and found are known only to a check made
  before anything is taken. -/
  | underflow (depths : Option (Int × Int))
  /-- The kinds wanted and found, where the instruction names them. -/
  | kindMismatch (kinds : Option (Kind × Kind))
  | divisionByZero
  /-- The argument is no integer, or, without a cause, a negative one. -/
  | badArgument (op : Opcode) (arg : Bytes) (cause : Option NumeralError)
  | negativeTarget (target : Int64)
  /-- The failure of an instruction that is not built in. -/
  | other (message : Bytes)
  deriving DecidableEq, Repr

namespace Fault

def message : Fault → Bytes
  | .underflow none => "stack underflow"
  | .underflow (some (need, found)) =>
    ("stack underflow: need " : Bytes) ++ Bytes.ofInt need ++ (" values, have " : Bytes) ++
      Bytes.ofInt found
  | .kindMismatch none => "type mismatch"
  | .kindMismatch (some (want, got)) =>
    ("type mismatch: want " : Bytes) ++ want.name ++ (", got " : Bytes) ++ got.name
  | .divisionByZero => "division by zero"
  | .badArgument op arg cause =>
    ("bad opcode argument: " : Bytes) ++ op.name ++ (" " : Bytes) ++ Text.quote arg ++
      match cause with
      | none => []
      | some e =>
        (": strconv.Atoi: parsing " : Bytes) ++ Text.quote (Text.trim arg) ++ (": " : Bytes) ++
          e.message
  | .negativeTarget target =>
    ("bad opcode argument: negative jump target " : Bytes) ++ Bytes.ofInt64 target
  | .other message => message

/-- An integer was wanted and a value of another kind found. -/
def notInteger (v : Value) : Fault := .kindMismatch (some (.integer, v.kind))

end Fault

/-- The state left behind, and the reason if the work failed. -/
inductive Outcome (ε : Type) where
  | done (st : State)
  | failed (reason : ε) (st : State)
  deriving DecidableEq, Repr

namespace Outcome

variable {ε : Type}

def state : Outcome ε → State
  | .done st => st
  | .failed _ st => st

def reason? : Outcome ε → Option ε
  | .done _ => none
  | .failed reason _ => some reason

@[simp] theorem state_done (st : State) : (done st : Outcome ε).state = st := rfl
@[simp] theorem state_failed (reason : ε) (st : State) : (failed reason st).state = st := rfl
@[simp] theorem reason?_done (st : State) : (done st : Outcome ε).reason? = none := rfl
@[simp] theorem reason?_failed (reason : ε) (st : State) :
    (failed reason st).reason? = some reason := rfl

/-- Goes on with a result that changed nothing, and leaves `st` if there is none. -/
def attempt {α : Type} (result : Except ε α) (st : State) (next : α → Outcome ε) : Outcome ε :=
  match result with
  | .ok a => next a
  | .error reason => .failed reason st

@[simp] theorem attempt_ok {α : Type} (a : α) (st : State) (next : α → Outcome ε) :
    attempt (.ok a) st next = next a := rfl
@[simp] theorem attempt_error {α : Type} (reason : ε) (st : State) (next : α → Outcome ε) :
    attempt (.error reason) st next = .failed reason st := rfl

end Outcome

end StackStep
