import StackStep.Program
import StackStep.Proofs.Machine.Step

/-!
The steps of a run.

`Program.run` looks at four things in turn before a step has been made. Each way
it can go on from a state has its equation here, so that two runs can be followed
side by side. A run shows the state after every step. The program is looked up in
the states before the steps, and these are the same with the first one in front. A
run through places that are known is put together from walks.
-/

namespace StackStep.Program

variable {code : Program} {fuel : Nat} {st st' : State} {ins : Instruction}

theorem run_of_terminated (h : st.terminated) : code.run fuel st = ⟨[], .terminated, st⟩ := by
  rw [run, if_pos h]

theorem run_of_fetch_none (h : ¬st.terminated) (hfetch : code.fetch st.pointer = none) :
    code.run fuel st = ⟨[], .outOfRange, st⟩ := by
  rw [run, if_neg h]
  simp only [hfetch]

theorem run_zero (h : ¬st.terminated) (hfetch : code.fetch st.pointer = some ins) :
    code.run 0 st = ⟨[], .fuel, st⟩ := by
  rw [run, if_neg h]
  simp only [hfetch]

theorem run_succ_of_done (h : ¬st.terminated) (hfetch : code.fetch st.pointer = some ins)
    (hcall : Registry.builtin.call ins.name ins.arg st = .done st') :
    code.run (fuel + 1) st =
      { code.run fuel st' with trace := .done st' :: (code.run fuel st').trace } := by
  rw [run, if_neg h]
  simp only [hfetch, hcall]

theorem run_succ_of_failed {reason : CallError} (h : ¬st.terminated)
    (hfetch : code.fetch st.pointer = some ins)
    (hcall : Registry.builtin.call ins.name ins.arg st = .failed reason st') :
    code.run (fuel + 1) st = ⟨[.failed reason st'], .error reason, st'⟩ := by
  rw [run, if_neg h]
  simp only [hfetch, hcall]

/-- The states a run goes through: the one it starts in and the one after each step. -/
def visited (code : Program) (fuel : Nat) (st : State) : List State :=
  st :: (code.run fuel st).trace.map Outcome.state

/-- The places at which a run makes its steps, each with the instruction found there. -/
def executed (code : Program) (fuel : Nat) (st : State) : List (Int64 × Option Instruction) :=
  (code.visited fuel st).dropLast.map fun st => (st.pointer, code.fetch st.pointer)

theorem visited_succ_of_done (h : ¬st.terminated) (hfetch : code.fetch st.pointer = some ins)
    (hcall : Registry.builtin.call ins.name ins.arg st = .done st') :
    code.visited (fuel + 1) st = st :: code.visited fuel st' := by
  rw [visited, run_succ_of_done h hfetch hcall]
  rfl

/-- A run that stops out of range has come to a state without an instruction. -/
theorem exists_fetch_none_of_outOfRange (h : (code.run fuel st).stop = .outOfRange) :
    ∃ st' ∈ code.visited fuel st, code.fetch st'.pointer = none := by
  induction fuel, st using run.induct code with
  | case1 fuel st hterminated =>
      rw [run_of_terminated hterminated] at h
      cases h
  | case2 fuel st hrunning hfetch => exact ⟨st, List.mem_cons_self, hfetch⟩
  | case3 st hrunning ins hfetch =>
      rw [run_zero hrunning hfetch] at h
      cases h
  | case4 st hrunning ins hfetch fuel st' hcall ih =>
      rw [run_succ_of_done hrunning hfetch hcall] at h
      obtain ⟨last, hlast, hnone⟩ := ih h
      rw [visited_succ_of_done hrunning hfetch hcall]
      exact ⟨last, List.mem_cons_of_mem st hlast, hnone⟩
  | case5 st hrunning ins hfetch fuel reason st' hcall =>
      rw [run_succ_of_failed hrunning hfetch hcall] at h
      cases h

theorem executed_succ_of_done (h : ¬st.terminated) (hfetch : code.fetch st.pointer = some ins)
    (hcall : Registry.builtin.call ins.name ins.arg st = .done st') :
    code.executed (fuel + 1) st =
      (st.pointer, code.fetch st.pointer) :: code.executed fuel st' := by
  have hne : code.visited fuel st' ≠ [] := List.cons_ne_nil _ _
  rw [executed, visited_succ_of_done h hfetch hcall, List.dropLast_cons_of_ne_nil hne,
    List.map_cons, executed]

/-! ### Walks

Where it is known what each instruction finds, a part of a run is a list of places and
the states at its two ends. Walks are put together one after another, and a run that
begins with a walk goes on from its end. -/

/-- Steps that succeed, made at the given places. -/
inductive Walk (code : Program) : List Int64 → State → State → Prop where
  | nil (st : State) : Walk code [] st st
  | cons {places : List Int64} {st mid last : State} {ins : Instruction} (h : ¬st.terminated)
      (hfetch : code.fetch st.pointer = some ins)
      (hcall : Registry.builtin.call ins.name ins.arg st = .done mid)
      (hrest : Walk code places mid last) : Walk code (st.pointer :: places) st last

namespace Walk

variable {places more : List Int64} {mid last : State}

theorem step {place : Int64} {op : Opcode} {arg : Bytes} (h : ¬st.terminated)
    (hplace : st.pointer = place) (hfetch : code.fetch place = some ⟨op.name, arg⟩)
    (hstep : op.Step arg st (.done mid)) (hrest : code.Walk places mid last) :
    code.Walk (place :: places) st last := by
  subst hplace
  exact .cons h hfetch (Registry.builtin_call_of_done (Opcode.apply_of_step hstep)) hrest

theorem append (h : code.Walk places st mid) (hmore : code.Walk more mid last) :
    code.Walk (places ++ more) st last := by
  induction h with
  | nil => exact hmore
  | cons hrunning hfetch hcall _ ih => exact .cons hrunning hfetch hcall (ih hmore)

theorem run_eq (h : code.Walk places st last) (fuel : Nat) :
    ∃ outs, outs.length = places.length ∧
      code.run (places.length + fuel) st =
        { code.run fuel last with trace := outs ++ (code.run fuel last).trace } := by
  induction h with
  | nil => exact ⟨[], rfl, by simp⟩
  | @cons places st mid last ins hrunning hfetch hcall _ ih =>
      obtain ⟨outs, hlength, hrun⟩ := ih
      refine ⟨.done mid :: outs, by rw [List.length_cons, List.length_cons, hlength], ?_⟩
      rw [List.length_cons, Nat.succ_add, run_succ_of_done hrunning hfetch hcall, hrun]
      rfl

theorem executed_eq (h : code.Walk places st last) (fuel : Nat) :
    code.executed (places.length + fuel) st =
      places.map (fun place => (place, code.fetch place)) ++ code.executed fuel last := by
  induction h with
  | nil => simp
  | cons hrunning hfetch hcall _ ih =>
      rw [List.length_cons, Nat.succ_add, executed_succ_of_done hrunning hfetch hcall, ih]
      rfl

/-- A walk to the end is the whole run. -/
theorem run_of_terminated (h : code.Walk places st last) (hlast : last.terminated) {fuel : Nat}
    (hfuel : places.length ≤ fuel) :
    (code.run fuel st).stop = .terminated ∧ (code.run fuel st).state = last ∧
      (code.run fuel st).trace.length = places.length ∧
      code.executed fuel st = places.map fun place => (place, code.fetch place) := by
  obtain ⟨spare, rfl⟩ := Nat.exists_eq_add_of_le hfuel
  obtain ⟨outs, hlength, hrun⟩ := h.run_eq spare
  have hend : code.run spare last = ⟨[], .terminated, last⟩ := Program.run_of_terminated hlast
  have hexecuted : code.executed spare last = [] := by
    rw [executed, visited, hend]
    rfl
  rw [hrun, hend, h.executed_eq, hexecuted, List.append_nil, List.append_nil]
  exact ⟨rfl, rfl, hlength, rfl⟩

end Walk

end StackStep.Program
