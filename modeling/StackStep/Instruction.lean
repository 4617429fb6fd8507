import StackStep.Fault

/-!
What the instructions do. Each takes its argument text and a state. An argument is read
before the stack is looked at, and the depth is checked before anything is taken, so the
only failures that change the state are those of the arithmetic and ordering
instructions, which drop the two operands they refuse.
-/

namespace StackStep

namespace State

/-- Fails if the stack holds fewer than `n` values. -/
def require (st : State) (n : Int64) : Except Fault Unit :=
  if (st.depth : Int) < n.toInt then .error (.underflow (some (n.toInt, st.depth))) else .ok ()

/-- The top value and the state without it. -/
def pop (st : State) : Except Fault (Value × State) :=
  match st.stack with
  | [] => .error (.underflow none)
  | v :: rest => .ok (v, { st with stack := rest })

/-- The value `n` places below the top. -/
def peek (st : State) (n : Int64) : Except Fault Value :=
  let absent : Fault := .underflow (some ((n + 1).toInt, st.depth))
  if n < 0 then .error absent
  else
    match st.stack[n.toNatClampNeg]? with
    | some v => .ok v
    | none => .error absent

/-- Moves the pointer, if the target is not negative. -/
def goto (st : State) (target : Int64) : Outcome Fault :=
  if target < 0 then .failed (.negativeTarget target) st else .done (st.jump target)

/-- Takes the two top values and puts back what `f` makes of them, the top one first. -/
def binary (st : State) (f : Value → Value → Except Fault Value) : Outcome Fault :=
  match st.stack with
  | tos :: nos :: rest =>
    match f tos nos with
    | .ok v => .done ({ st with stack := v :: rest } : State).advance
    | .error fault => .failed fault { st with stack := rest }
  | _ => .failed (.underflow (some (2, st.depth))) st

end State

/-- A function of two integers as one of two values, of which the top one is looked at
first. -/
def onIntegers (f : Int64 → Int64 → Except Fault Value) (tos nos : Value) :
    Except Fault Value :=
  match tos, nos with
  | .integer t, .integer n => f t n
  | .integer _, nos => .error (.notInteger nos)
  | tos, _ => .error (.notInteger tos)

namespace Opcode

def readInteger (op : Opcode) (arg : Bytes) : Except Fault Int64 :=
  match Numeral.read arg with
  | .ok n => .ok n
  | .error e => .error (.badArgument op arg (some e))

/-- An integer argument that may not be negative. -/
def readCount (op : Opcode) (arg : Bytes) : Except Fault Int64 :=
  match op.readInteger arg with
  | .ok n => if n < 0 then .error (.badArgument op arg none) else .ok n
  | .error fault => .error fault

/-- Takes the top value and jumps if its truth is `want`. -/
def popJumpIf (op : Opcode) (want : Bool) (arg : Bytes) (st : State) : Outcome Fault :=
  .attempt (op.readCount arg) st fun target =>
    .attempt st.pop st fun (v, st) =>
      if v.truthy = want then st.goto target else .done st.advance

/-- Moves a counter one step toward its limit and jumps back, or takes both off the stack
where they meet. The limit lies below the counter and is looked at first. -/
def stepCounter (op : Opcode) (arg : Bytes) (st : State) : Outcome Fault :=
  .attempt (op.readCount arg) st fun target =>
    match st.stack with
    | counter :: limit :: rest =>
      match limit, counter with
      | .integer e, .integer c =>
        if c = e then .done ({ st with stack := rest } : State).advance
        else
          let next := if e < c then c - 1 else c + 1
          ({ st with stack := .integer next :: limit :: rest } : State).goto target
      | .integer _, counter => .failed (.notInteger counter) st
      | limit, _ => .failed (.notInteger limit) st
    | _ => .failed (.underflow (some (2, st.depth))) st

def apply (op : Opcode) (arg : Bytes) (st : State) : Outcome Fault :=
  match op with
  | halt => .done st.terminate
  | line => .attempt (op.readCount arg) st fun n => .done { st.advance with line := n }
  | store => .attempt st.pop st fun (v, st) => .done (st.bind arg v).advance
  | load => .done (st.push (st.env.lookup arg)).advance
  | integer => .attempt (op.readInteger arg) st fun n => .done (st.push (.integer n)).advance
  | text => .done (st.push (.text arg)).advance
  | add => st.binary (onIntegers fun t n => .ok (.integer (n + t)))
  | sub => st.binary (onIntegers fun t n => .ok (.integer (t - n)))
  | div =>
    st.binary (onIntegers fun t n =>
      if n = 0 then .error .divisionByZero else .ok (.integer (t / n)))
  | mul => st.binary (onIntegers fun t n => .ok (.integer (t * n)))
  | same => st.binary fun t n => .ok (.ofBool (t = n))
  | differ => st.binary fun t n => .ok (.ofBool (t ≠ n))
  | smaller => st.binary (onIntegers fun t n => .ok (.ofBool (t < n)))
  | notSmaller => st.binary (onIntegers fun t n => .ok (.ofBool (n ≤ t)))
  | dup =>
    .attempt (op.readCount arg) st fun n =>
      .attempt (st.require n) st fun _ =>
        .done ({ st with stack := st.stack.take n.toNatClampNeg ++ st.stack } : State).advance
  | drop =>
    .attempt (op.readCount arg) st fun n =>
      .attempt (st.require n) st fun _ =>
        .done ({ st with stack := st.stack.drop n.toNatClampNeg } : State).advance
  | swap =>
    match st.stack with
    | tos :: nos :: rest => .done ({ st with stack := nos :: tos :: rest } : State).advance
    | _ => .failed (.underflow (some (2, st.depth))) st
  | jump => .attempt (op.readCount arg) st fun target => st.goto target
  | jumpIfFalse => op.popJumpIf false arg st
  | jumpIfTrue => op.popJumpIf true arg st
  | repeatStep => op.stepCounter arg st

end Opcode

end StackStep
