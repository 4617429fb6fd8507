import StackStep.Proofs.Machine.Step

/-!
What an instruction may do to the state beyond its own work.

An instruction that succeeds moves the pointer by one, jumps to its argument or,
being the last one, leaves it. An instruction that fails has changed nothing,
except that six of them have already taken the two operands that they refuse.
These six look at the kinds of their operands only after taking them, while the
counter instruction, which can fail for the same reason, looks first.
-/

namespace StackStep

/-- A failure for what the operands are, not for how many there are. -/
def Fault.onOperands : Fault → Bool
  | .kindMismatch _ | .divisionByZero => true
  | _ => false

namespace Opcode

def jumps : Opcode → Bool
  | jump | jumpIfFalse | jumpIfTrue | repeatStep => true
  | _ => false

/-- The instructions that take their operands before they look at them. -/
def dropsOperands : Opcode → Bool
  | add | sub | div | mul | smaller | notSmaller => true
  | _ => false

variable {op : Opcode} {arg : Bytes} {st st' : State}

theorem onOperands_of_onIntegers {f : Int64 → Int64 → Except Fault Value} {tos nos : Value}
    {fault : Fault} (hf : ∀ t n, f t n = .error fault → fault.onOperands)
    (h : onIntegers f tos nos = .error fault) : fault.onOperands := by
  unfold onIntegers at h
  split at h
  · exact hf _ _ h
  · cases h
    rfl
  · cases h
    rfl

/-- Comparing for equality refuses nothing, so an operation that fails is one
of the six. -/
theorem dropsOperands_of_operation? {f : Value → Value → Except Fault Value} {tos nos : Value}
    {fault : Fault} (hop : op.operation? = some f) (h : f tos nos = .error fault) :
    op.dropsOperands ∧ fault.onOperands := by
  cases op with
  | add | sub | mul | smaller | notSmaller =>
      cases hop
      exact ⟨rfl, onOperands_of_onIntegers (fun _ _ hf => by cases hf) h⟩
  | div =>
      cases hop
      refine ⟨rfl, onOperands_of_onIntegers ?_ h⟩
      intro t n hf
      split at hf
      · cases hf
        rfl
      · cases hf
  | same | differ =>
      cases hop
      cases h
  | halt | line | store | load | integer | text | dup | drop | swap | jump | jumpIfFalse
  | jumpIfTrue | repeatStep => cases hop

/-- Where a step that succeeds leaves the pointer. -/
theorem pointer_of_done (h : op.apply arg st = .done st') :
    op ≠ .halt ∧ op ≠ .jump ∧ st'.pointer = st.pointer + 1 ∨
      op = .halt ∧ st'.pointer = st.pointer ∨
      op.jumps ∧ IsCount arg st'.pointer := by
  cases step_of_apply h with
  | halt => exact .inr (.inl ⟨rfl, rfl⟩)
  | operate hop | jumpUnless hop =>
      refine .inl ⟨?_, ?_, rfl⟩
      · rintro rfl
        cases hop
      · rintro rfl
        cases hop
  | jumpIf hop harg hstack htruth =>
      refine .inr (.inr ⟨?_, harg⟩)
      rcases eq_of_condition? hop with rfl | rfl <;> rfl
  | jump harg => exact .inr (.inr ⟨rfl, harg⟩)
  | repeatBack harg hstack hne => exact .inr (.inr ⟨rfl, harg⟩)
  | line | store | load | integer | text | dup | drop | swap | repeatLeave =>
      exact .inl ⟨by decide, by decide, rfl⟩

/-- What a step that fails leaves behind: the state as it was, or the state
without the two operands that were refused. -/
theorem state_of_failed {fault : Fault} (h : op.apply arg st = .failed fault st') :
    st' = st ∧ ¬(op.dropsOperands ∧ fault.onOperands) ∨
      (op.dropsOperands ∧ fault.onOperands) ∧
        ∃ tos nos rest, st.stack = tos :: nos :: rest ∧ st' = { st with stack := rest } := by
  -- The counter instruction is not among the six, whatever its fault; every other
  -- step that keeps the state fails for its argument or for want of values.
  cases step_of_apply h with
  | refuse hop hstack hv =>
      exact .inr ⟨dropsOperands_of_operation? hop hv, _, _, _, hstack, rfl⟩
  | repeatLimit | repeatCounter => exact .inl ⟨rfl, by simp [dropsOperands]⟩
  | notInteger | negative | storeEmpty | shallow | short | jumpEmpty =>
      exact .inl ⟨rfl, by simp [Fault.onOperands]⟩

/-- Every call of a built-in instruction ends in one of two ways. A failure
names the instruction and the pointer, which has not moved. -/
theorem call_contract (op : Opcode) (arg : Bytes) (st : State) :
    (∃ st', Registry.builtin.call op.name arg st = .done st' ∧
      (op ≠ .halt ∧ op ≠ .jump ∧
          st'.pointer.toInt = (st.pointer.toInt + 1).bmod UInt64.size ∨
        op = .halt ∧ st'.pointer = st.pointer ∨
        op.jumps ∧ ∃ n, Numeral.read arg = .ok n ∧ 0 ≤ n ∧ st'.pointer = n)) ∨
    (∃ fault st',
      Registry.builtin.call op.name arg st = .failed (.opcode op.name st'.pointer fault) st' ∧
      st'.pointer = st.pointer ∧ st'.terminated = st.terminated ∧ st'.line = st.line ∧
      st'.env = st.env ∧
      if op.dropsOperands ∧ fault.onOperands then ∃ tos nos, st.stack = tos :: nos :: st'.stack
      else st'.stack = st.stack) := by
  cases happly : op.apply arg st with
  | done st' =>
      refine .inl ⟨st', Registry.builtin_call_of_done happly, ?_⟩
      rcases pointer_of_done happly with ⟨hhalt, hjump, hpointer⟩ | hhalt | ⟨hjumps, harg⟩
      · refine .inl ⟨hhalt, hjump, ?_⟩
        rw [hpointer, Int64.toInt_add]
        rfl
      · exact .inr (.inl hhalt)
      · exact .inr (.inr ⟨hjumps, _, harg.read, harg.nonneg, rfl⟩)
  | failed fault st' =>
      have hcall := Registry.builtin_call_of_failed happly
      rcases state_of_failed happly with ⟨rfl, hkeeps⟩ | ⟨hdrops, tos, nos, rest, hstack, rfl⟩
      · exact .inr ⟨fault, _, hcall, rfl, rfl, rfl, rfl, by rw [if_neg hkeeps]⟩
      · refine .inr ⟨fault, { st with stack := rest }, hcall, rfl, rfl, rfl, rfl, ?_⟩
        rw [if_pos hdrops]
        exact ⟨tos, nos, hstack⟩

end Opcode

end StackStep
