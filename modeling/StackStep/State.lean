import StackStep.Env

/-!
The state that every instruction reads and leaves. The stack is a list with its top
first, so what lies beneath a program's own values is a tail that it never opens. The
pointer and the line are words of 64 bits and wrap.
-/

namespace StackStep

structure State where
  /-- The operands, the top of the stack first. -/
  stack : List Value := []
  pointer : Int64 := 0
  terminated : Bool := false
  env : Env := {}
  /-- The source line last announced. -/
  line : Int64 := 0
  deriving DecidableEq, Repr

namespace State

/-- The number of values on the stack. -/
def depth (st : State) : Nat := st.stack.length

def push (st : State) (v : Value) : State := { st with stack := v :: st.stack }

def advance (st : State) : State := { st with pointer := st.pointer + 1 }

def jump (st : State) (target : Int64) : State := { st with pointer := target }

def terminate (st : State) : State := { st with terminated := true }

def bind (st : State) (name : Bytes) (v : Value) : State := { st with env := st.env.bind name v }

/-- The state with `below` put under its stack. -/
def above (st : State) (below : List Value) : State := { st with stack := st.stack ++ below }

@[simp] theorem stack_push (st : State) (v : Value) : (st.push v).stack = v :: st.stack := rfl
@[simp] theorem stack_advance (st : State) : st.advance.stack = st.stack := rfl
@[simp] theorem stack_jump (st : State) (n : Int64) : (st.jump n).stack = st.stack := rfl
@[simp] theorem stack_terminate (st : State) : st.terminate.stack = st.stack := rfl
@[simp] theorem stack_bind (st : State) (name : Bytes) (v : Value) :
    (st.bind name v).stack = st.stack := rfl
@[simp] theorem pointer_advance (st : State) : st.advance.pointer = st.pointer + 1 := rfl
@[simp] theorem pointer_jump (st : State) (n : Int64) : (st.jump n).pointer = n := rfl
@[simp] theorem stack_above (st : State) (below : List Value) :
    (st.above below).stack = st.stack ++ below := rfl

/-- The values from the bottom to the top. -/
def renderStack (st : State) : Bytes :=
  ("[" : Bytes) ++ Bytes.join ", " (st.stack.reverse.map Value.render) ++ ("]" : Bytes)

/-- One line: the variables only if there are any, the line only if it is positive. -/
def render (st : State) : Bytes :=
  ("pointer=" : Bytes) ++ Bytes.ofInt64 st.pointer ++
    (" terminated=" : Bytes) ++ Bytes.ofBool st.terminated ++
    (" stack=" : Bytes) ++ st.renderStack ++
    (if st.env.isEmpty then [] else (" env=" : Bytes) ++ st.env.render) ++
    (if 0 < st.line then (" line=" : Bytes) ++ Bytes.ofInt64 st.line else [])

end State

end StackStep
