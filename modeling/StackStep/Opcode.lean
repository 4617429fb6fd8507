import StackStep.Bytes

/-!
The built-in instructions and what is declared about them: the name, how many values an
instruction takes from the stack and puts on it, what its argument means and a line of
documentation. The listing and the editor service show these declarations. What the
instructions do is in `StackStep.Instruction`.
-/

namespace StackStep

inductive Opcode where
  | halt
  | line
  | store
  | load
  | integer
  | text
  | add
  | sub
  | div
  | mul
  | same
  | differ
  | smaller
  | notSmaller
  | dup
  | drop
  | swap
  | jump
  | jumpIfFalse
  | jumpIfTrue
  | repeatStep
  deriving DecidableEq, Repr

/-- What is declared about an instruction. A negative effect depends on the argument, and
an empty `arg` says that the argument is not used. -/
structure OpcodeInfo where
  name : Bytes
  pops : Int
  pushes : Int
  arg : Bytes
  doc : Bytes
  deriving DecidableEq, Repr

/-- A count of values as it is shown, `n` where it depends on the argument. -/
def OpcodeInfo.effect (n : Int) : Bytes := if n < 0 then "n" else Bytes.ofInt n

namespace Opcode

def all : List Opcode :=
  [halt, line, store, load, integer, text, add, sub, div, mul, same, differ, smaller,
    notSmaller, dup, drop, swap, jump, jumpIfFalse, jumpIfTrue, repeatStep]

theorem mem_all (op : Opcode) : op ∈ all := by cases op <;> decide

def name : Opcode → Bytes
  | halt => "END"
  | line => "SET_LINE_NO"
  | store => "STORE"
  | load => "LOAD"
  | integer => "LOAD_INTEGER"
  | text => "LOAD_STRING"
  | add => "BINARY_ADD"
  | sub => "BINARY_SUB"
  | div => "BINARY_DIV"
  | mul => "BINARY_MUL"
  | same => "COMPARE_SAME"
  | differ => "COMPARE_NSAME"
  | smaller => "COMPARE_SMALLER"
  | notSmaller => "COMPARE_NSMALLER"
  | dup => "DUP_TOPX"
  | drop => "POP_TOPX"
  | swap => "ROT_TWO"
  | jump => "JUMP"
  | jumpIfFalse => "POP_JUMP_IF_FALSE"
  | jumpIfTrue => "POP_JUMP_IF_TRUE"
  | repeatStep => "REPEAT_STEP"

theorem name_ne_nil (op : Opcode) : op.name ≠ [] := by cases op <;> decide

def info (op : Opcode) : OpcodeInfo :=
  match op with
  | halt => ⟨op.name, 0, 0, "", "Terminate execution"⟩
  | line => ⟨op.name, 0, 0, "line", "Record the current source line"⟩
  | store => ⟨op.name, 1, 0, "name", "Pop TOS and bind it to name"⟩
  | load => ⟨op.name, 0, 1, "name", "Push the value bound to name, 0 if unbound"⟩
  | integer => ⟨op.name, 0, 1, "integer", "Push an integer literal"⟩
  | text => ⟨op.name, 0, 1, "text", "Push the argument as text"⟩
  | add => ⟨op.name, 2, 1, "", "Pop b, pop a, push a + b"⟩
  | sub => ⟨op.name, 2, 1, "", "Pop TOS, pop NOS, push TOS - NOS"⟩
  | div => ⟨op.name, 2, 1, "", "Pop TOS, pop NOS, push TOS / NOS truncated"⟩
  | mul => ⟨op.name, 2, 1, "", "Pop TOS, pop NOS, push TOS * NOS"⟩
  | same => ⟨op.name, 2, 1, "", "Push 1 if TOS equals NOS, else 0"⟩
  | differ => ⟨op.name, 2, 1, "", "Push 1 if TOS differs from NOS, else 0"⟩
  | smaller => ⟨op.name, 2, 1, "", "Push 1 if TOS < NOS, else 0"⟩
  | notSmaller => ⟨op.name, 2, 1, "", "Push 1 if TOS >= NOS, else 0"⟩
  | dup => ⟨op.name, -1, -1, "count", "Duplicate the top count values"⟩
  | drop => ⟨op.name, -1, 0, "count", "Discard the top count values"⟩
  | swap => ⟨op.name, 2, 2, "", "Swap TOS and NOS"⟩
  | jump => ⟨op.name, 0, 0, "target", "Jump to target"⟩
  | jumpIfFalse => ⟨op.name, 1, 0, "target", "Pop TOS, jump to target if falsy"⟩
  | jumpIfTrue => ⟨op.name, 1, 0, "target", "Pop TOS, jump to target if truthy"⟩
  | repeatStep =>
    ⟨op.name, -1, 0, "target", "Step a repeat counter toward its end or leave the loop"⟩

@[simp] theorem name_info (op : Opcode) : op.info.name = op.name := by cases op <;> rfl

end Opcode

end StackStep
