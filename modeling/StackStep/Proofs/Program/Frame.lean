import StackStep.Proofs.Machine.Step
import StackStep.Proofs.Program.Run

/-!
What lies beneath the values of a program.

An instruction finds its operands on top of the stack, and how deep it reaches is
checked before anything is taken. So values put under a stack that is deep enough
are not seen: the instruction does what it did without them and leaves them where
they are. Only a failure for want of values may go another way, since the values
that were missing are then found beneath. For a run the same holds step by step, up
to the first such failure, which ends it.
-/

namespace StackStep

def Fault.isUnderflow : Fault → Bool
  | .underflow _ => true
  | _ => false

def CallError.isUnderflow : CallError → Bool
  | .opcode _ _ fault => fault.isUnderflow
  | .unknownOpcode _ => false

def Program.Stop.isUnderflow : Program.Stop → Bool
  | .error reason => reason.isUnderflow
  | _ => false

namespace Outcome

variable {ε : Type}

/-- The outcome with `below` put under the stack that is left. -/
def above (out : Outcome ε) (below : List Value) : Outcome ε :=
  match out with
  | .done st => .done (st.above below)
  | .failed reason st => .failed reason (st.above below)

@[simp] theorem state_above (out : Outcome ε) (below : List Value) :
    (out.above below).state = out.state.above below := by
  cases out <;> rfl

end Outcome

/-! ### One step -/

namespace State

variable {st : State}

theorem stack_above_cons {v : Value} {rest : List Value} (h : st.stack = v :: rest)
    (below : List Value) : (st.above below).stack = v :: (rest ++ below) := by
  rw [stack_above, h, List.cons_append]

theorem depth_above (st : State) (below : List Value) :
    (st.above below).depth = st.depth + below.length := by
  rw [depth, stack_above, List.length_append, depth]

/-- A count that the depth allows is one that the stack allows. -/
theorem count_le_length {n : Int64} (h : n.toInt ≤ st.depth) :
    n.toNatClampNeg ≤ st.stack.length := by
  rw [← Int64.toNat_toInt]
  exact Int.toNat_le.mpr h

end State

namespace Opcode

variable {op : Opcode} {arg : Bytes} {st st' : State}

/-- What happens on a stack happens on it with more values beneath, unless it fails for
want of values. -/
theorem Step.above {out : Outcome Fault} (h : Step arg st op out)
    (hdeep : ∀ fault, out.reason? = some fault → ¬fault.isUnderflow) (below : List Value) :
    Step arg (st.above below) op (out.above below) := by
  cases h with
  | notInteger hop harg => exact .notInteger hop harg
  | negative hop harg hn => exact .negative hop harg hn
  | halt => exact .halt
  | line harg => exact .line harg
  | store hstack => exact .store (State.stack_above_cons hstack below)
  | load => exact .load
  | integer harg => exact .integer harg
  | text => exact .text
  | operate hop hstack hv => exact .operate hop (State.stack_above_cons hstack below) hv
  | refuse hop hstack hv => exact .refuse hop (State.stack_above_cons hstack below) hv
  | @dup n harg hdepth =>
      have hstep : Step arg (st.above below) .dup _ :=
        .dup harg (by rw [State.depth_above]; omega)
      rw [State.stack_above, List.take_append_of_le_length (State.count_le_length hdepth),
        ← List.append_assoc] at hstep
      exact hstep
  | @drop n harg hdepth =>
      have hstep : Step arg (st.above below) .drop _ :=
        .drop harg (by rw [State.depth_above]; omega)
      rw [State.stack_above, List.drop_append_of_le_length (State.count_le_length hdepth)]
        at hstep
      exact hstep
  | swap hstack => exact .swap (State.stack_above_cons hstack below)
  | jump harg => exact .jump harg
  | jumpIf hop harg hstack htruth =>
      exact .jumpIf hop harg (State.stack_above_cons hstack below) htruth
  | jumpUnless hop harg hstack htruth =>
      exact .jumpUnless hop harg (State.stack_above_cons hstack below) htruth
  | repeatLimit harg hstack => exact .repeatLimit harg (State.stack_above_cons hstack below)
  | repeatCounter harg hstack =>
      exact .repeatCounter harg (State.stack_above_cons hstack below)
  | repeatLeave harg hstack => exact .repeatLeave harg (State.stack_above_cons hstack below)
  | repeatBack harg hstack hne =>
      exact .repeatBack harg (State.stack_above_cons hstack below) hne
  | storeEmpty | shallow | short | jumpEmpty => exact absurd rfl (hdeep _ rfl)

end Opcode

theorem Registry.builtin_call_above {name arg : Bytes} {st : State}
    (hdeep : ∀ reason, (builtin.call name arg st).reason? = some reason → ¬reason.isUnderflow)
    (below : List Value) :
    builtin.call name arg (st.above below) = (builtin.call name arg st).above below := by
  cases hcall : builtin.call name arg st with
  | done st' =>
      obtain ⟨op, rfl, happly⟩ := builtin_call_eq_done.mp hcall
      have hstep := (Opcode.step_of_apply happly).above (by simp) below
      exact builtin_call_of_done (Opcode.apply_of_step hstep)
  | failed reason st' =>
      rw [hcall] at hdeep
      rcases of_builtin_call_failed hcall with ⟨op, fault, rfl, happly, rfl⟩ | ⟨hname, rfl, rfl⟩
      · have hfault : ¬fault.isUnderflow := hdeep _ rfl
        have hstep := (Opcode.step_of_apply happly).above (by simpa using hfault) below
        exact builtin_call_of_failed (Opcode.apply_of_step hstep)
      · exact builtin_call_unknown hname arg _

/-! ### A run -/

namespace Program

variable {code : Program} {fuel : Nat} {st : State}

def Run.above (r : Run) (below : List Value) : Run where
  trace := r.trace.map (·.above below)
  stop := r.stop
  state := r.state.above below

theorem run_above (h : ¬(code.run fuel st).stop.isUnderflow) (below : List Value) :
    code.run fuel (st.above below) = (code.run fuel st).above below := by
  -- The pointer and the end are the same with and without the values beneath, so both
  -- runs take the same case; a step that fails for want of values is excluded by `h`.
  induction fuel, st using run.induct code with
  | case1 fuel st hterminated =>
      rw [run_of_terminated hterminated]
      exact run_of_terminated hterminated
  | case2 fuel st hrunning hfetch =>
      rw [run_of_fetch_none hrunning hfetch]
      exact run_of_fetch_none hrunning hfetch
  | case3 st hrunning ins hfetch =>
      rw [run_zero hrunning hfetch]
      exact run_zero hrunning hfetch
  | case4 st hrunning ins hfetch fuel st' hcall ih =>
      rw [run_succ_of_done hrunning hfetch hcall] at h ⊢
      have hcall' : Registry.builtin.call ins.name ins.arg (st.above below) =
          .done (st'.above below) := by
        rw [Registry.builtin_call_above (by simp [hcall]), hcall]
        rfl
      have hrunning' : ¬(st.above below).terminated := hrunning
      rw [run_succ_of_done hrunning' hfetch hcall', ih h]
      rfl
  | case5 st hrunning ins hfetch fuel reason st' hcall =>
      rw [run_succ_of_failed hrunning hfetch hcall] at h ⊢
      have hreason : ¬reason.isUnderflow := h
      have hcall' : Registry.builtin.call ins.name ins.arg (st.above below) =
          .failed reason (st'.above below) := by
        rw [Registry.builtin_call_above (by simpa [hcall] using hreason), hcall]
        rfl
      exact run_succ_of_failed hrunning hfetch hcall'

theorem visited_above (h : ¬(code.run fuel st).stop.isUnderflow) (below : List Value) :
    code.visited fuel (st.above below) = (code.visited fuel st).map (·.above below) := by
  rw [visited, run_above h, visited, List.map_cons, Run.above, List.map_map, List.map_map]
  congr 2
  funext out
  exact out.state_above below

/-- The frame property: a run that does not stop for want of values carries out the same
instructions at the same places with more values under its stack, stops for the same
reason, and has these values untouched beneath in every state. -/
theorem run_frame (code : Program) (fuel : Nat) (st : State) (below : List Value)
    (h : ¬(code.run fuel st).stop.isUnderflow) :
    code.executed fuel (st.above below) = code.executed fuel st ∧
    code.visited fuel (st.above below) = (code.visited fuel st).map (·.above below) ∧
    code.run fuel (st.above below) = (code.run fuel st).above below := by
  refine ⟨?_, visited_above h below, run_above h below⟩
  rw [executed, visited_above h, ← List.map_dropLast, List.map_map]
  rfl

/-- A loop over two values, and a product with a text at the end that is refused. -/
theorem run_frame_refused :
    let code : Program :=
      [⟨"LOAD_INTEGER", "2"⟩, ⟨"LOAD_INTEGER", "0"⟩, ⟨"DUP_TOPX", "1"⟩, ⟨"STORE", "i"⟩,
        ⟨"REPEAT_STEP", "2"⟩, ⟨"LOAD_STRING", "i"⟩, ⟨"DUP_TOPX", "1"⟩, ⟨"BINARY_MUL", []⟩]
    let below : List Value := [.text "x", .integer 5]
    (code.run 20 {}).stop =
        .error (.opcode "BINARY_MUL" 7 (.kindMismatch (some (.integer, .text)))) ∧
      (code.run 20 {}).trace.length = 14 ∧
      code.executed 20 (State.above {} below) = code.executed 20 {} ∧
      code.run 20 (State.above {} below) = (code.run 20 {}).above below := by
  intro code below
  have hstop : (code.run 20 {}).stop =
      .error (.opcode "BINARY_MUL" 7 (.kindMismatch (some (.integer, .text)))) := by decide +kernel
  obtain ⟨hexecuted, -, hrun⟩ := run_frame code 20 {} below (by rw [hstop]; decide)
  exact ⟨hstop, by decide +kernel, hexecuted, hrun⟩

end Program

end StackStep
