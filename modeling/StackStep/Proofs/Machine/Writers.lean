import StackStep.Program
import StackStep.Proofs.History
import StackStep.Proofs.Machine.Step

/-!
Who writes what.

The variables, the line and the mark of the end are each written by one instruction
only. All others leave them as they are, also where they fail after having taken
their operands. So after any calls, made one after another whether they succeed or
fail, these fields tell who wrote them last.
-/

namespace StackStep

namespace Opcode

variable {op : Opcode} {arg : Bytes} {st : State} {out : Outcome Fault}

theorem Step.env_of_ne (h : Step arg st op out) (hop : op ≠ .store) :
    out.state.env = st.env := by
  cases h with
  | store => exact absurd rfl hop
  | _ => rfl

theorem Step.line_of_ne (h : Step arg st op out) (hop : op ≠ .line) :
    out.state.line = st.line := by
  cases h with
  | line => exact absurd rfl hop
  | _ => rfl

theorem Step.terminated_of_ne (h : Step arg st op out) (hop : op ≠ .halt) :
    out.state.terminated = st.terminated := by
  cases h with
  | halt => exact absurd rfl hop
  | _ => rfl

end Opcode

/-! ### One call -/

namespace State

/-- The state that a call leaves, whether it succeeds or fails. -/
def exec (st : State) (ins : Instruction) : State :=
  (Registry.builtin.call ins.name ins.arg st).state

def succeeds (st : State) (ins : Instruction) : Bool :=
  (Registry.builtin.call ins.name ins.arg st).reason?.isNone

/-- The value that a call binds to a name: what a store under exactly this name takes
from the stack, if it succeeds. -/
def stored? (name : Bytes) (call : State × Instruction) : Option Value :=
  if call.2.name = Opcode.store.name ∧ call.2.arg = name ∧ call.1.succeeds call.2 then
    call.1.stack.head?
  else none

/-- The line that a call announces: what its argument is read as, if it succeeds. -/
def announced? (call : State × Instruction) : Option Int64 :=
  if call.2.name = Opcode.line.name ∧ call.1.succeeds call.2 then
    (Numeral.read call.2.arg).toOption
  else none

variable {st : State} {ins : Instruction}

/-- A call of a known name is the step of its instruction. -/
theorem exec_of_step (st : State) {op : Opcode} {out : Outcome Fault}
    (hname : ins.name = op.name) (h : op.Step ins.arg st out) :
    st.exec ins = out.state ∧ st.succeeds ins = out.reason?.isNone := by
  have happly := Opcode.apply_of_step h
  rw [exec, succeeds, hname]
  cases out with
  | done st' =>
      rw [Registry.builtin_call_of_done happly]
      exact ⟨rfl, rfl⟩
  | failed fault st' =>
      rw [Registry.builtin_call_of_failed happly]
      exact ⟨rfl, rfl⟩

/-- Every call is a step of the instruction of its name, or there is none and nothing
happens. -/
theorem exec_cases (st : State) (ins : Instruction) :
    (∃ (op : Opcode) (out : Outcome Fault), ins.name = op.name ∧ op.Step ins.arg st out ∧
      st.exec ins = out.state ∧ st.succeeds ins = out.reason?.isNone) ∨
    st.exec ins = st ∧ st.succeeds ins = false := by
  by_cases hop : ∃ op : Opcode, ins.name = op.name
  · obtain ⟨op, hname⟩ := hop
    have hstep := op.step_apply ins.arg st
    exact .inl ⟨op, _, hname, hstep, exec_of_step st hname hstep⟩
  · have hunknown : ∀ op : Opcode, op.name ≠ ins.name := fun op heq => hop ⟨op, heq.symm⟩
    rw [exec, succeeds, Registry.builtin_call_unknown hunknown]
    exact .inr ⟨rfl, rfl⟩

/-- What only one instruction writes is kept by the calls of all other names, the
unknown ones included. -/
theorem field_exec_of_ne {β : Type} {field : State → β} {writer : Opcode}
    (hkeeps : ∀ {op arg st out}, Opcode.Step arg st op out → op ≠ writer →
      field out.state = field st)
    (hname : ins.name ≠ writer.name) : field (st.exec ins) = field st := by
  rcases exec_cases st ins with ⟨op, out, hop, hstep, hexec, -⟩ | ⟨hexec, -⟩
  · rw [hexec]
    refine hkeeps hstep ?_
    rintro rfl
    exact hname hop
  · rw [hexec]

theorem find?_env_exec (st : State) (ins : Instruction) (x : Bytes) :
    (st.exec ins).env.find? x =
      ((stored? x (st, ins)).map some).getD (st.env.find? x) := by
  by_cases hname : ins.name = Opcode.store.name
  · cases hstack : st.stack with
    | nil =>
        obtain ⟨hexec, hfails⟩ := exec_of_step st hname (.storeEmpty hstack)
        simp [stored?, hexec, hfails]
    | cons v rest =>
        obtain ⟨hexec, hsucceeds⟩ := exec_of_step st hname (.store hstack)
        have hfind : (st.exec ins).env.find? x =
            if x = ins.arg then some v else st.env.find? x := by
          rw [hexec]
          exact Dict.find?_insert st.env ins.arg x v
        rw [hfind]
        by_cases hx : x = ins.arg
        · simp [stored?, hname, hx, hsucceeds, hstack]
        · simp [stored?, hx, Ne.symm hx]
  · rw [field_exec_of_ne Opcode.Step.env_of_ne hname]
    simp [stored?, hname]

/-- What has been bound has been taken from the stack. -/
theorem stack_of_stored? {x : Bytes} {call : State × Instruction} {v : Value}
    (h : stored? x call = some v) : call.1.stack = v :: (call.1.exec call.2).stack := by
  obtain ⟨st, ins⟩ := call
  rw [stored?] at h
  split at h
  · next hcall =>
      obtain ⟨rest, hstack⟩ := List.head?_eq_some_iff.mp h
      rw [(exec_of_step st hcall.1 (.store hstack)).1]
      exact hstack
  · cases h

theorem line_exec (st : State) (ins : Instruction) :
    (st.exec ins).line = (announced? (st, ins)).getD st.line := by
  by_cases hname : ins.name = Opcode.line.name
  · cases harg : Numeral.read ins.arg with
    | error e =>
        obtain ⟨hexec, hfails⟩ := exec_of_step st hname (.notInteger (.inr rfl) harg)
        simp [announced?, hexec, hfails]
    | ok n =>
        by_cases hn : n < 0
        · obtain ⟨hexec, hfails⟩ := exec_of_step st hname (.negative rfl harg hn)
          simp [announced?, hexec, hfails]
        · obtain ⟨hexec, hsucceeds⟩ :=
            exec_of_step st hname (.line ⟨harg, Int64.not_lt.mp hn⟩)
          simp [announced?, hname, hexec, hsucceeds, harg, Except.toOption]
  · rw [field_exec_of_ne Opcode.Step.line_of_ne hname]
    simp [announced?, hname]

theorem terminated_exec (st : State) (ins : Instruction) :
    (st.exec ins).terminated ↔ st.terminated ∨ ins.name = Opcode.halt.name := by
  by_cases hname : ins.name = Opcode.halt.name
  · rw [(exec_of_step st hname .halt).1]
    simp [hname, terminate]
  · rw [field_exec_of_ne Opcode.Step.terminated_of_ne hname]
    simp [hname]

/-! ### Any calls -/

def execAll (st : State) (calls : List Instruction) : State := calls.foldl exec st

def past (st : State) (calls : List Instruction) : List (State × Instruction) :=
  trail exec st calls

theorem execAll_append (st : State) (calls more : List Instruction) :
    st.execAll (calls ++ more) = (st.execAll calls).execAll more := List.foldl_append

theorem find?_env_execAll (st : State) (calls : List Instruction) (x : Bytes) :
    (st.execAll calls).env.find? x =
      (lastSome? (stored? x) (st.past calls)).or (st.env.find? x) := by
  have hview := view_foldl (fun st => st.env.find? x) (fun call => (stored? x call).map some)
    (fun st ins => find?_env_exec st ins x) st calls
  rw [lastSome?_map] at hview
  rw [execAll, hview, past]
  cases lastSome? (stored? x) (trail exec st calls) with
  | none => rfl
  | some v => rfl

theorem line_execAll (st : State) (calls : List Instruction) :
    (st.execAll calls).line = (lastSome? announced? (st.past calls)).getD st.line :=
  view_foldl line announced? line_exec st calls

theorem terminated_execAll (st : State) (calls : List Instruction) :
    (st.execAll calls).terminated ↔
      st.terminated ∨ ∃ ins ∈ calls, ins.name = Opcode.halt.name := by
  induction calls generalizing st with
  | nil => simp [execAll]
  | cons ins calls ih =>
      have hstep : st.execAll (ins :: calls) = (st.exec ins).execAll calls := rfl
      rw [hstep, ih, terminated_exec, or_assoc]
      simp

/-- The last writer wins, and nobody else writes. After any calls, a name is bound to the
value that the latest successful store under it took from the stack, or as it was, and no
binding is lost; a load made then pushes that value, or zero; the line is the one announced
last; and the end is marked once it has been called for, and stays so. -/
theorem last_writer_wins (st : State) (calls : List Instruction) :
    (∀ x, (st.execAll calls).env.find? x =
      (lastSome? (stored? x) (st.past calls)).or (st.env.find? x)) ∧
    (∀ x v, ∀ call ∈ st.past calls, stored? x call = some v →
      call.1.stack = v :: (call.1.exec call.2).stack) ∧
    (∀ x more, ((st.execAll calls).env.find? x).isSome →
      ((st.execAll (calls ++ more)).env.find? x).isSome) ∧
    (∀ x, Registry.builtin.call Opcode.load.name x (st.execAll calls) =
      .done ((st.execAll calls).push
        (((lastSome? (stored? x) (st.past calls)).or (st.env.find? x)).getD
          (.integer 0))).advance) ∧
    (st.execAll calls).line = (lastSome? announced? (st.past calls)).getD st.line ∧
    ((st.execAll calls).terminated ↔
      st.terminated ∨ ∃ ins ∈ calls, ins.name = Opcode.halt.name) ∧
    ∀ more, (st.execAll calls).terminated → (st.execAll (calls ++ more)).terminated := by
  refine ⟨find?_env_execAll st calls, fun x v call _ => stack_of_stored?, ?_, ?_,
    line_execAll st calls, terminated_execAll st calls, ?_⟩
  · intro x more hbound
    rw [execAll_append, find?_env_execAll, Option.isSome_or, hbound, Bool.or_true]
  · intro x
    rw [← find?_env_execAll]
    exact Registry.builtin_call_of_done (Opcode.apply_of_step .load)
  · intro more hterminated
    rw [execAll_append, terminated_execAll]
    exact .inl hterminated

/-- The first store finds nothing, the sum fails and drops its operands, and the last
store is under another name. -/
theorem last_writer_wins_mixed :
    let st : State := { env := Dict.ofList [("y", .text "b")], line := 2 }
    let calls : List Instruction :=
      [⟨"STORE", "x"⟩, ⟨"LOAD_INTEGER", "1"⟩, ⟨"STORE", "x"⟩, ⟨"LOAD_STRING", "a"⟩,
        ⟨"LOAD_INTEGER", "2"⟩, ⟨"BINARY_ADD", []⟩, ⟨"SET_LINE_NO", " 4 "⟩,
        ⟨"SET_LINE_NO", "-5"⟩, ⟨"LOAD_INTEGER", "3"⟩, ⟨"STORE", " x"⟩, ⟨"END", []⟩]
    let more : List Instruction := [⟨"NONE", []⟩, ⟨"JUMP", "0"⟩]
    (st.execAll calls).env.find? "x" = some (.integer 1) ∧
      ((st.execAll (calls ++ more)).env.find? "y").isSome ∧
      Registry.builtin.call "LOAD" "z" (st.execAll calls) =
        .done ((st.execAll calls).push (.integer 0)).advance ∧
      (st.execAll calls).line = 4 ∧ (st.execAll (calls ++ more)).terminated := by
  intro st calls more
  obtain ⟨henv, -, hkept, hload, hline, hend, hstays⟩ := last_writer_wins st calls
  refine ⟨?_, hkept "y" more ?_, ?_, ?_, hstays more (hend.mpr (.inr ?_))⟩
  · rw [henv]
    decide +kernel
  · rw [henv]
    decide +kernel
  · have hnone : (lastSome? (stored? "z") (st.past calls)).or (st.env.find? "z") = none := by
      decide +kernel
    have hcall := hload "z"
    rw [hnone] at hcall
    exact hcall
  · rw [hline]
    decide +kernel
  · decide +kernel

end State

end StackStep
