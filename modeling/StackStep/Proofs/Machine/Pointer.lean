import StackStep.Proofs.Machine.Writers
import StackStep.Proofs.Word

/-!
How far the pointer and the line can go.

Neither is meant to be negative. Lines and targets are read as counts, so no argument
brings a negative number in, and a call that fails leaves both as they were. What
remains is the way to the next place, which is taken without a check. From the
largest word it leads to the smallest one, and there is no other way below zero.
-/

namespace StackStep

namespace Opcode

/-- Whether the instruction goes on to the next place when it succeeds on this stack. The
end stays where it is, and a jump that is taken goes to its target. -/
def fallsThrough (op : Opcode) (stack : List Value) : Bool :=
  match op, stack with
  | halt, _ | jump, _ => false
  | jumpIfFalse, v :: _ => v.truthy
  | jumpIfTrue, v :: _ => !v.truthy
  | repeatStep, counter :: limit :: _ => counter = limit
  | _, _ => true

variable {op : Opcode} {arg : Bytes} {st : State} {out : Outcome Fault}

theorem fallsThrough_of_operation? {f : Value → Value → Except Fault Value}
    (hop : op.operation? = some f) (stack : List Value) : op.fallsThrough stack := by
  cases op with
  | add | sub | div | mul | same | differ | smaller | notSmaller => rfl
  | halt | line | store | load | integer | text | dup | drop | swap | jump | jumpIfFalse
  | jumpIfTrue | repeatStep => cases hop

/-- A conditional jump goes on where the truth is not the one it wants. -/
theorem fallsThrough_of_condition? {want : Bool} (hop : op.condition? = some want) (v : Value)
    (rest : List Value) : op.fallsThrough (v :: rest) ↔ v.truthy ≠ want := by
  rcases eq_of_condition? hop with rfl | rfl
  · cases hop
    simp [fallsThrough]
  · cases hop
    simp [fallsThrough]

/-- Where a step leaves the pointer: at the next place, or where it was, or at a target. -/
theorem Step.pointer_cases (h : Step arg st op out) :
    (out.reason? = none ∧ op.fallsThrough st.stack) ∧ out.state.pointer = st.pointer + 1 ∨
      ¬(out.reason? = none ∧ op.fallsThrough st.stack) ∧
        (out.state.pointer = st.pointer ∨ 0 ≤ out.state.pointer) := by
  cases h with
  | notInteger | negative | storeEmpty | shallow | refuse | short | jumpEmpty | repeatLimit
  | repeatCounter => exact .inr ⟨by simp, .inl rfl⟩
  | halt => exact .inr ⟨by simp [fallsThrough], .inl rfl⟩
  | line | store | load | integer | text | dup | drop | swap => exact .inl ⟨⟨rfl, rfl⟩, rfl⟩
  | operate hop => exact .inl ⟨⟨rfl, fallsThrough_of_operation? hop _⟩, rfl⟩
  | jump harg => exact .inr ⟨by simp [fallsThrough], .inr harg.nonneg⟩
  | jumpIf hop harg hstack htruth =>
      refine .inr ⟨?_, .inr harg.nonneg⟩
      rw [hstack, fallsThrough_of_condition? hop]
      exact fun hfalls => hfalls.2 htruth
  | jumpUnless hop harg hstack htruth =>
      refine .inl ⟨⟨rfl, ?_⟩, rfl⟩
      rw [hstack, fallsThrough_of_condition? hop]
      exact htruth
  | repeatLeave harg hstack => exact .inl ⟨⟨rfl, by simp [fallsThrough, hstack]⟩, rfl⟩
  | repeatBack harg hstack hne =>
      exact .inr ⟨by simp [fallsThrough, hstack, hne], .inr harg.nonneg⟩

theorem Step.line_nonneg (h : Step arg st op out) (hst : 0 ≤ st.line) : 0 ≤ out.state.line := by
  cases h with
  | line harg => exact harg.nonneg
  | _ => exact hst

end Opcode

namespace State

/-! ### One call -/

def advances (st : State) (ins : Instruction) : Bool :=
  st.succeeds ins && Opcode.all.any fun op => op.name = ins.name && op.fallsThrough st.stack

variable {st : State} {ins : Instruction}

theorem advances_iff {op : Opcode} (hname : ins.name = op.name) :
    st.advances ins ↔ st.succeeds ins ∧ op.fallsThrough st.stack := by
  rw [advances, Bool.and_eq_true, List.any_eq_true]
  refine and_congr_right fun _ => ?_
  constructor
  · rintro ⟨op', -, hop'⟩
    obtain ⟨hname', hfalls⟩ := Bool.and_eq_true_iff.mp hop'
    obtain rfl : op' = op := Opcode.name_injective ((of_decide_eq_true hname').trans hname)
    exact hfalls
  · intro hfalls
    exact ⟨op, op.mem_all, by simp [hname, hfalls]⟩

theorem pointer_exec_cases (st : State) (ins : Instruction) :
    st.advances ins ∧ (st.exec ins).pointer = st.pointer + 1 ∨
      ¬st.advances ins ∧
        ((st.exec ins).pointer = st.pointer ∨ 0 ≤ (st.exec ins).pointer) := by
  rcases exec_cases st ins with ⟨op, out, hname, hstep, hexec, hsucceeds⟩ | ⟨hexec, hfails⟩
  · rw [advances_iff hname, hsucceeds, hexec, Option.isNone_iff_eq_none]
    exact hstep.pointer_cases
  · refine .inr ⟨?_, .inl (by rw [hexec])⟩
    rw [advances, hfails]
    exact Bool.false_ne_true

/-- A call on a pointer that is not negative makes it negative only by going on from the
largest word. -/
theorem pointer_exec_nonneg_iff (h : 0 ≤ st.pointer) :
    0 ≤ (st.exec ins).pointer ↔ (st.advances ins → st.pointer ≠ Int64.maxValue) := by
  rcases pointer_exec_cases st ins with ⟨hadvances, hpointer⟩ | ⟨hstays, hpointer⟩
  · rw [hpointer, nonneg_add_one_iff h]
    exact ⟨fun hne _ => hne, fun hne => hne hadvances⟩
  · refine ⟨fun _ hadvances => absurd hadvances hstays, fun _ => ?_⟩
    rcases hpointer with hpointer | hpointer
    · exact hpointer ▸ h
    · exact hpointer

theorem line_exec_nonneg (h : 0 ≤ st.line) : 0 ≤ (st.exec ins).line := by
  rcases exec_cases st ins with ⟨op, out, -, hstep, hexec, -⟩ | ⟨hexec, -⟩
  · rw [hexec]
    exact hstep.line_nonneg h
  · rw [hexec]
    exact h

/-! ### Any calls -/

theorem line_execAll_nonneg (h : 0 ≤ st.line) (calls : List Instruction) :
    0 ≤ (st.execAll calls).line := by
  induction calls generalizing st with
  | nil => exact h
  | cons ins calls ih => exact ih (line_exec_nonneg h)

/-- The pointer is never negative on the way exactly if no call goes on from the largest
word. -/
theorem pointer_execAll_nonneg_iff (h : 0 ≤ st.pointer) (calls : List Instruction) :
    (∀ earlier, earlier <+: calls → 0 ≤ (st.execAll earlier).pointer) ↔
      ∀ call ∈ st.past calls, call.1.advances call.2 → call.1.pointer ≠ Int64.maxValue := by
  induction calls generalizing st with
  | nil =>
      constructor
      · intro _ call hcall
        cases hcall
      · intro _ earlier hearlier
        rw [List.prefix_nil.mp hearlier]
        exact h
  | cons ins calls ih =>
      have hpast : st.past (ins :: calls) = (st, ins) :: (st.exec ins).past calls := rfl
      rw [hpast, List.forall_mem_cons, ← pointer_exec_nonneg_iff h]
      constructor
      · intro hall
        have hnext : 0 ≤ (st.exec ins).pointer :=
          hall [ins] (List.prefix_cons_inj ins |>.mpr List.nil_prefix)
        refine ⟨hnext, (ih hnext).mp ?_⟩
        intro earlier hearlier
        exact hall (ins :: earlier) (List.prefix_cons_inj ins |>.mpr hearlier)
      · rintro ⟨hnext, hcalls⟩ earlier hearlier
        rcases List.prefix_cons_iff.mp hearlier with rfl | ⟨rest, rfl, hrest⟩
        · exact h
        · exact (ih hnext).mpr hcalls rest hrest

/-- From a pointer and a line that are not negative: the line stays so after any calls,
and the pointer does after each of them exactly if none goes on from the largest word. -/
theorem nonneg_execAll (st : State) (calls : List Instruction) (hpointer : 0 ≤ st.pointer)
    (hline : 0 ≤ st.line) :
    0 ≤ (st.execAll calls).line ∧
    ((∀ earlier, earlier <+: calls → 0 ≤ (st.execAll earlier).pointer) ↔
      ∀ call ∈ st.past calls, call.1.advances call.2 → call.1.pointer ≠ Int64.maxValue) :=
  ⟨line_execAll_nonneg hline calls, pointer_execAll_nonneg_iff hpointer calls⟩

/-- At the largest word a store that finds nothing, the end and a jump do no harm. -/
theorem nonneg_execAll_at_limit :
    let calls : List Instruction :=
      [⟨"SET_LINE_NO", "3"⟩, ⟨"JUMP", "9223372036854775807"⟩, ⟨"STORE", "x"⟩,
        ⟨"SET_LINE_NO", "-1"⟩, ⟨"END", []⟩, ⟨"JUMP", "7"⟩, ⟨"LOAD", "x"⟩]
    0 ≤ (execAll {} calls).line ∧
      ∀ earlier, earlier <+: calls → 0 ≤ (execAll {} earlier).pointer := by
  intro calls
  obtain ⟨hline, hpointer⟩ := nonneg_execAll {} calls (by decide) (by decide)
  exact ⟨hline, hpointer.mpr (by decide +kernel)⟩

/-- A jump to the largest word is taken, and the next instruction that succeeds there leaves
a negative pointer. -/
theorem pointer_negative_behind_limit :
    ¬∀ (st : State) (calls : List Instruction), 0 ≤ st.pointer → 0 ≤ st.line →
      0 ≤ (st.execAll calls).pointer ∧ 0 ≤ (st.execAll calls).line := by
  intro h
  have hpointer := (h {} [⟨"JUMP", "9223372036854775807"⟩, ⟨"LOAD_STRING", []⟩]
    (by decide) (by decide)).1
  exact absurd hpointer (by decide +kernel)

end State

end StackStep
