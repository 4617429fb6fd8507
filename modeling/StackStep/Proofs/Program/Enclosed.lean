import StackStep.Proofs.Machine.Contract
import StackStep.Proofs.Program.Run
import StackStep.Proofs.Word

/-!
Programs that control does not leave.

A run looks its next instruction up at the pointer, and finds none where the
pointer is outside the program. A step that succeeds sends the pointer to the next
place or to a target. So there are two ways out: a target that is no place of the
program, and the place after the last instruction. `Enclosed` rules both out by
what the program says, whatever its instructions find on the stack.
-/

namespace StackStep

/-- Where an instruction may jump to: its argument, if it is one that jumps and the
argument is an integer that is not negative. -/
def Instruction.target? (ins : Instruction) : Option Int64 :=
  if Opcode.all.any fun op => op.jumps && op.name = ins.name then
    (Numeral.read ins.arg).toOption.filter (0 ≤ ·)
  else none

theorem Instruction.target?_of_isCount {ins : Instruction} {op : Opcode} {n : Int64}
    (hop : op.jumps) (hname : op.name = ins.name) (harg : IsCount ins.arg n) :
    ins.target? = some n := by
  have hany : (Opcode.all.any fun op => op.jumps && op.name = ins.name) = true :=
    List.any_eq_true.mpr ⟨op, op.mem_all, by simp [hop, hname]⟩
  rw [target?, if_pos hany, harg.read]
  exact Option.filter_eq_some_iff.mpr ⟨rfl, by simpa using harg.nonneg⟩

namespace Program

variable {code : Program} {fuel : Nat} {st st' : State} {ins : Instruction}

def Inside (code : Program) (st : State) : Prop :=
  0 ≤ st.pointer.toInt ∧ st.pointer.toInt < code.length

instance (code : Program) (st : State) : Decidable (code.Inside st) :=
  inferInstanceAs (Decidable (_ ∧ _))

theorem fetch_eq_some_iff :
    code.fetch st.pointer = some ins ↔
      0 ≤ st.pointer.toInt ∧ code[st.pointer.toInt.toNat]? = some ins := by
  have hneg : st.pointer < 0 ↔ st.pointer.toInt < 0 := Int64.lt_iff_toInt_lt
  rw [fetch, ← Int64.toNat_toInt]
  split
  · next h =>
      have hlt := hneg.mp h
      constructor
      · intro hnone
        cases hnone
      · rintro ⟨hle, -⟩
        omega
  · next h =>
      have hle : 0 ≤ st.pointer.toInt := Int.not_lt.mp fun hlt => h (hneg.mpr hlt)
      exact ⟨fun hins => ⟨hle, hins⟩, And.right⟩

/-- The program has an instruction at the pointer exactly if the pointer is inside. -/
theorem exists_fetch_iff : (∃ ins, code.fetch st.pointer = some ins) ↔ code.Inside st := by
  constructor
  · rintro ⟨ins, hfetch⟩
    obtain ⟨hle, hget⟩ := fetch_eq_some_iff.mp hfetch
    obtain ⟨hlt, -⟩ := List.getElem?_eq_some_iff.mp hget
    exact ⟨hle, by omega⟩
  · rintro ⟨hle, hlt⟩
    have hindex : st.pointer.toInt.toNat < code.length := by omega
    exact ⟨_, fetch_eq_some_iff.mpr ⟨hle, List.getElem?_eq_getElem hindex⟩⟩

/-- Every target is a place of the program, and the last instruction ends the run or
jumps. -/
structure Enclosed (code : Program) : Prop where
  targets : ∀ ins ∈ code, ∀ n ∈ ins.target?, n.toInt < code.length
  last : ∃ ins ∈ code.getLast?, ins.name = Opcode.halt.name ∨ ins.name = Opcode.jump.name

/-- The same as a test. An instruction has one target at most, so no other word is tried. -/
theorem enclosed_iff :
    code.Enclosed ↔
      (code.all fun ins => ins.target?.all fun n => n.toInt < (code.length : Int)) ∧
      code.getLast?.any fun ins =>
        ins.name = Opcode.halt.name ∨ ins.name = Opcode.jump.name := by
  have htargets : (code.all fun ins => ins.target?.all fun n => n.toInt < (code.length : Int)) ↔
      ∀ ins ∈ code, ∀ n ∈ ins.target?, n.toInt < code.length := by
    simp [Option.all_eq_true]
  have hlast : (code.getLast?.any fun ins =>
        ins.name = Opcode.halt.name ∨ ins.name = Opcode.jump.name) ↔
      ∃ ins ∈ code.getLast?, ins.name = Opcode.halt.name ∨ ins.name = Opcode.jump.name := by
    simp [Option.any_eq_true]
  rw [htargets, hlast]
  exact ⟨fun h => ⟨h.targets, h.last⟩, fun h => ⟨h.1, h.2⟩⟩

instance (code : Program) : Decidable code.Enclosed := decidable_of_iff _ enclosed_iff.symm

/-- An instruction that is neither of the two last ones has another behind it. -/
theorem Enclosed.succ_lt_length (h : code.Enclosed) {op : Opcode} {i : Nat}
    (hget : code[i]? = some ins) (hname : op.name = ins.name) (hhalt : op ≠ .halt)
    (hjump : op ≠ .jump) : i + 1 < code.length := by
  obtain ⟨hlt, -⟩ := List.getElem?_eq_some_iff.mp hget
  obtain ⟨last, hlast, hends⟩ := h.last
  have hne : i + 1 ≠ code.length := by
    intro heq
    have hlast : code.getLast? = some last := hlast
    rw [List.getLast?_eq_getElem?, ← heq, Nat.add_sub_cancel, hget] at hlast
    cases hlast
    rcases hends with hends | hends
    · exact hhalt (Opcode.name_injective (hname.trans hends))
    · exact hjump (Opcode.name_injective (hname.trans hends))
  omega

/-- A step: a call that succeeds keeps the pointer inside. -/
theorem Enclosed.inside_of_done (h : code.Enclosed) (hlength : code.length < 2 ^ 63)
    (hfetch : code.fetch st.pointer = some ins)
    (hcall : Registry.builtin.call ins.name ins.arg st = .done st') : code.Inside st' := by
  have hinside : code.Inside st := exists_fetch_iff.mp ⟨ins, hfetch⟩
  obtain ⟨hle, hget⟩ := fetch_eq_some_iff.mp hfetch
  obtain ⟨op, hname, happly⟩ := Registry.builtin_call_eq_done.mp hcall
  rcases Opcode.pointer_of_done happly with ⟨hhalt, hjump, hpointer⟩ | ⟨-, hpointer⟩ | ⟨hop, harg⟩
  · have hnext := h.succ_lt_length hget hname hhalt hjump
    have hsucc : (st.pointer + 1).toInt = st.pointer.toInt + 1 := toInt_add_one (by omega)
    rw [Inside, hpointer, hsucc]
    omega
  · rw [Inside, hpointer]
    exact hinside
  · have htarget := Instruction.target?_of_isCount hop hname harg
    have hnonneg : 0 ≤ st'.pointer.toInt := Int64.le_iff_toInt_le.mp harg.nonneg
    exact ⟨hnonneg, h.targets ins (List.mem_of_getElem? hget) _ htarget⟩

/-- A call that fails does not move the pointer. -/
theorem inside_of_failed {reason : CallError} (h : code.Inside st)
    (hcall : Registry.builtin.call ins.name ins.arg st = .failed reason st') :
    code.Inside st' := by
  rcases Registry.of_builtin_call_failed hcall with ⟨op, fault, -, happly, -⟩ | ⟨-, -, rfl⟩
  · rcases Opcode.state_of_failed happly with ⟨rfl, -⟩ | ⟨-, tos, nos, rest, -, rfl⟩
    · exact h
    · exact h
  · exact h

/-- A run: the pointer is inside in every state on the way. -/
theorem Enclosed.inside_of_mem_visited (h : code.Enclosed) (hlength : code.length < 2 ^ 63)
    (hst : code.Inside st) : ∀ st' ∈ code.visited fuel st, code.Inside st' := by
  -- The first three cases make no step, the fourth goes on after one and the last fails.
  induction fuel, st using run.induct code with
  | case1 fuel st hterminated =>
      rw [visited, run_of_terminated hterminated]
      exact List.forall_mem_singleton.mpr hst
  | case2 fuel st hrunning hfetch =>
      rw [visited, run_of_fetch_none hrunning hfetch]
      exact List.forall_mem_singleton.mpr hst
  | case3 st hrunning ins hfetch =>
      rw [visited, run_zero hrunning hfetch]
      exact List.forall_mem_singleton.mpr hst
  | case4 st hrunning ins hfetch fuel st' hcall ih =>
      rw [visited_succ_of_done hrunning hfetch hcall]
      exact List.forall_mem_cons.mpr ⟨hst, ih (h.inside_of_done hlength hfetch hcall)⟩
  | case5 st hrunning ins hfetch fuel reason st' hcall =>
      rw [visited, run_succ_of_failed hrunning hfetch hcall]
      refine List.forall_mem_cons.mpr ⟨hst, List.forall_mem_singleton.mpr ?_⟩
      exact inside_of_failed hst hcall

/-- A run of an enclosed program that starts inside it finds an instruction in every
state it comes to, so it never stops out of range. -/
theorem run_stays_inside (h : code.Enclosed) (hlength : code.length < 2 ^ 63)
    (hst : code.Inside st) (fuel : Nat) :
    (∀ st' ∈ code.visited fuel st,
      code.Inside st' ∧ ∃ ins, code.fetch st'.pointer = some ins) ∧
    (code.run fuel st).stop ≠ .outOfRange := by
  have hinside : ∀ st' ∈ code.visited fuel st, code.Inside st' :=
    h.inside_of_mem_visited hlength hst
  refine ⟨fun st' hst' => ⟨hinside st' hst', exists_fetch_iff.mpr (hinside st' hst')⟩, ?_⟩
  intro hstop
  obtain ⟨last, hlast, hnone⟩ := exists_fetch_none_of_outOfRange hstop
  obtain ⟨ins, hsome⟩ := exists_fetch_iff.mpr (hinside last hlast)
  rw [hnone] at hsome
  cases hsome

/-- Targets that are no integers or negative do not count: such a jump fails and stays
where it is. -/
theorem run_stays_inside_counting :
    let code : Program :=
      [⟨"LOAD_INTEGER", "3"⟩, ⟨"LOAD_INTEGER", "1"⟩, ⟨"LOAD", "x"⟩,
        ⟨"POP_JUMP_IF_TRUE", "7"⟩, ⟨"REPEAT_STEP", " 2 "⟩, ⟨"LOAD", "x"⟩,
        ⟨"POP_JUMP_IF_FALSE", "-8"⟩, ⟨"JUMP", "eight"⟩, ⟨"JUMP", "0"⟩]
    code.Enclosed ∧ code.length < 2 ^ 63 ∧ code.Inside {} ∧
      ∀ fuel, (code.run fuel {}).stop ≠ .outOfRange := by
  intro code
  have h : code.Enclosed := by decide
  have hlength : code.length < 2 ^ 63 := by decide
  have hst : code.Inside {} := by decide
  exact ⟨h, hlength, hst, fun fuel => (run_stays_inside h hlength hst fuel).2⟩

end Program

end StackStep
