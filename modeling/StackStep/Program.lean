import StackStep.Registry

/-!
Running a program: the instruction at the pointer is carried out by name until the state
is terminated, an instruction fails, the pointer leaves the program, or the fuel is used
up. These are looked at in the order terminated, out of range, fuel.
-/

namespace StackStep

structure Instruction where
  name : Bytes
  arg : Bytes
  deriving DecidableEq, Repr

abbrev Program := List Instruction

namespace Program

/-- The instruction at the pointer, if the pointer is within the program. -/
def fetch (code : Program) (pointer : Int64) : Option Instruction :=
  if pointer < 0 then none else code[pointer.toNatClampNeg]?

inductive Stop where
  | terminated
  | outOfRange
  | fuel
  | error (reason : CallError)
  deriving DecidableEq, Repr

/-- What a run shows: the outcome of each step, why it stopped and the state then. -/
structure Run where
  trace : List (Outcome CallError)
  stop : Stop
  state : State
  deriving DecidableEq, Repr

/-- Runs the program on the built-in instructions for at most `fuel` steps. -/
def run (code : Program) : (fuel : Nat) → State → Run
  | fuel, st =>
    if st.terminated then ⟨[], .terminated, st⟩
    else
      match code.fetch st.pointer with
      | none => ⟨[], .outOfRange, st⟩
      | some ins =>
        match fuel with
        | 0 => ⟨[], .fuel, st⟩
        | fuel + 1 =>
          match Registry.builtin.call ins.name ins.arg st with
          | .done st' =>
            let rest := run code fuel st'
            { rest with trace := .done st' :: rest.trace }
          | .failed reason st' => ⟨[.failed reason st'], .error reason, st'⟩

end Program

end StackStep
