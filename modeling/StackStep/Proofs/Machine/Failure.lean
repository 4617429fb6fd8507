import StackStep.Proofs.Machine.Step

/-!
Why a call fails.

Several things can be wrong with one call. An instruction reads its argument first,
then looks at the depth of the stack, then at the kinds of its operands and last at
the operands themselves, and it reports the first thing that is wrong. `failure?` is
this order, written down once for all instructions, with all that is reported.

Some checks repeat an earlier one. A target has been read as a count when the pointer
is moved to it, and the depth has been looked at when values are taken in a row. The
second check then never fails, and for the depth this is an equivalence: a stack
passes the check for `n` values if and only if `n` values can be taken from it.
-/

namespace StackStep

namespace State

def popMany : Nat → State → Except Fault (List Value × State)
  | 0, st => .ok ([], st)
  | n + 1, st =>
    match st.pop with
    | .error fault => .error fault
    | .ok (v, st) =>
      match popMany n st with
      | .error fault => .error fault
      | .ok (vs, st) => .ok (v :: vs, st)

theorem popMany_of_le {n : Nat} {st : State} (h : n ≤ st.depth) :
    st.popMany n = .ok (st.stack.take n, { st with stack := st.stack.drop n }) := by
  induction n generalizing st with
  | zero => rfl
  | succ n ih =>
      match hstack : st.stack with
      | [] => simp [depth, hstack] at h
      | v :: rest =>
          have hrest : n ≤ ({ st with stack := rest } : State).depth := by
            simpa [depth, hstack] using h
          simp only [popMany, pop, hstack, ih hrest, List.take_succ_cons, List.drop_succ_cons]

theorem popMany_of_lt {n : Nat} {st : State} (h : st.depth < n) :
    st.popMany n = .error (.underflow none) := by
  induction n generalizing st with
  | zero => exact absurd h (Nat.not_lt_zero _)
  | succ n ih =>
      match hstack : st.stack with
      | [] => simp only [popMany, pop, hstack]
      | v :: rest =>
          have hrest : ({ st with stack := rest } : State).depth < n := by
            simpa [depth, hstack] using h
          simp only [popMany, pop, hstack, ih hrest]

/-- The check for a number of values is exact: it passes where they can be taken. -/
theorem require_eq_ok_iff (st : State) (n : Int64) :
    st.require n = .ok () ↔
      ∃ taken rest, st.stack = taken ++ rest ∧ taken.length = n.toNatClampNeg ∧
        st.popMany n.toNatClampNeg = .ok (taken, { st with stack := rest }) := by
  have hclamp : n.toNatClampNeg = n.toInt.toNat := rfl
  unfold require
  split
  · next hdepth =>
      have hlt : st.depth < n.toNatClampNeg := by omega
      simp [popMany_of_lt hlt]
  · next hdepth =>
      have hle : n.toNatClampNeg ≤ st.depth := by omega
      refine iff_of_true rfl ⟨st.stack.take n.toNatClampNeg, st.stack.drop n.toNatClampNeg, ?_, ?_,
        popMany_of_le hle⟩
      · rw [List.take_append_drop]
      · exact List.length_take_of_le hle

end State

namespace Numeral

/-- The integer that a text is read as, zero where it is none. -/
def valueOf (arg : Bytes) : Int :=
  match read arg with
  | .ok n => n.toInt
  | .error _ => 0

def errorOf? (arg : Bytes) : Option NumeralError :=
  match read arg with
  | .ok _ => none
  | .error e => some e

end Numeral

namespace Opcode

/-- Whether the instruction cannot do with its argument: it is not an integer and has to
be one, or it is negative and has to be a count or a target. -/
def refuses (op : Opcode) (arg : Bytes) : Bool :=
  match Numeral.read arg with
  | .error _ => op = .integer || op.readsCount
  | .ok n => op.readsCount && n < 0

def needs (arg : Bytes) : Opcode → Int
  | store | jumpIfFalse | jumpIfTrue => 1
  | dup | drop => Numeral.valueOf arg
  | add | sub | div | mul | same | differ | smaller | notSmaller | swap | repeatStep => 2
  | halt | line | load | integer | text | jump => 0

/-- The instructions that take a value without having looked at the depth, and do not
report it. -/
def takesBlindly : Opcode → Bool
  | store | jumpIfFalse | jumpIfTrue => true
  | _ => false

def wantsIntegers : Opcode → Bool
  | add | sub | div | mul | smaller | notSmaller | repeatStep => true
  | _ => false

/-- The first thing that is wrong with a call. -/
def failure? (op : Opcode) (arg : Bytes) (st : State) : Option Fault :=
  if op.refuses arg then some (.badArgument op arg (Numeral.errorOf? arg))
  else if st.depth < op.needs arg then
    some (.underflow (if op.takesBlindly then none else some (op.needs arg, st.depth)))
  else if op.wantsIntegers ∧ ∃ v ∈ st.stack.take 2, v.kind = .text then
    some (.kindMismatch (some (.integer, .text)))
  else if op = .div ∧ st.stack[1]? = some (.integer 0) then some .divisionByZero
  else none

variable {op : Opcode} {arg : Bytes} {st : State}

/-! ### Arguments -/

theorem refuses_of_not_reads (hinteger : op ≠ .integer) (hcount : op.readsCount = false) :
    op.refuses arg = false := by
  unfold refuses
  split
  · simp [hinteger, hcount]
  · simp [hcount]

theorem refuses_of_isCount {n : Int64} (h : IsCount arg n) : op.refuses arg = false := by
  simp [refuses, h.read, Int64.not_lt.mpr h.nonneg]

theorem valueOf_of_isCount {n : Int64} (h : IsCount arg n) : Numeral.valueOf arg = n.toInt := by
  rw [Numeral.valueOf, h.read]

/-! ### One thing wrong after another -/

theorem failure?_of_refuses (h : op.refuses arg) :
    op.failure? arg st = some (.badArgument op arg (Numeral.errorOf? arg)) := by
  rw [failure?, if_pos h]

theorem failure?_of_shallow (hread : op.refuses arg = false) (hdepth : st.depth < op.needs arg) :
    op.failure? arg st =
      some (.underflow (if op.takesBlindly then none else some (op.needs arg, st.depth))) := by
  rw [failure?, if_neg (by simp [hread]), if_pos hdepth]

/-- Where integers are not asked for, enough values are enough. -/
theorem failure?_of_deep (hread : op.refuses arg = false) (hdepth : op.needs arg ≤ st.depth)
    (hwants : op.wantsIntegers = false) : op.failure? arg st = none := by
  have hdiv : op ≠ .div := by
    rintro rfl
    cases hwants
  rw [failure?, if_neg (by simp [hread]), if_neg (Int.not_lt.mpr hdepth),
    if_neg (by simp [hwants]), if_neg (by simp [hdiv])]

theorem failure?_of_operands {tos nos : Value} {rest : List Value}
    (hread : op.refuses arg = false) (hneeds : op.needs arg = 2)
    (hstack : st.stack = tos :: nos :: rest) :
    op.failure? arg st =
      if op.wantsIntegers ∧ (tos.kind = .text ∨ nos.kind = .text) then
        some (.kindMismatch (some (.integer, .text)))
      else if op = .div ∧ nos = .integer 0 then some .divisionByZero
      else none := by
  have hdepth : ¬(st.depth : Int) < op.needs arg := by
    rw [hneeds, State.depth, hstack, List.length_cons, List.length_cons]
    omega
  rw [failure?, if_neg (by simp [hread]), if_neg hdepth, hstack]
  simp

/-! ### Operations -/

theorem needs_of_operation? {f : Value → Value → Except Fault Value} (hop : op.operation? = some f)
    (arg : Bytes) : op.refuses arg = false ∧ op.needs arg = 2 ∧ op.takesBlindly = false := by
  cases op with
  | add | sub | div | mul | same | differ | smaller | notSmaller =>
      exact ⟨refuses_of_not_reads (by decide) rfl, rfl, rfl⟩
  | _ => cases hop

theorem needs_of_condition? {want : Bool} (hop : op.condition? = some want) (arg : Bytes) :
    op.needs arg = 1 ∧ op.takesBlindly ∧ op.wantsIntegers = false := by
  rcases eq_of_condition? hop with rfl | rfl
  · exact ⟨rfl, rfl, rfl⟩
  · exact ⟨rfl, rfl, rfl⟩

theorem failure?_of_operation? {f : Value → Value → Except Fault Value} {tos nos : Value}
    {rest : List Value} (hop : op.operation? = some f) (hstack : st.stack = tos :: nos :: rest) :
    op.failure? arg st = match f tos nos with | .ok _ => none | .error fault => some fault := by
  obtain ⟨hread, hneeds, -⟩ := needs_of_operation? hop arg
  rw [failure?_of_operands hread hneeds hstack]
  cases op with
  | same | differ =>
      cases hop
      rfl
  | add | sub | mul | smaller | notSmaller =>
      cases hop
      cases tos <;> cases nos <;> rfl
  | div =>
      cases hop
      cases tos with
      | text t => cases nos <;> rfl
      | integer t =>
          cases nos with
          | text u => rfl
          | integer n =>
              have hne : Kind.integer ≠ .text := by decide
              by_cases hn : n = 0
              · simp [onIntegers, hne, hn]
              · simp [onIntegers, hne, hn]
  | _ => cases hop

/-! ### Calls -/

theorem one_le_depth {v : Value} {rest : List Value} (hstack : st.stack = v :: rest) :
    (1 : Int) ≤ st.depth := by
  rw [State.depth, hstack, List.length_cons]
  omega

theorem reason?_of_step {out : Outcome Fault} (h : Step arg st op out) :
    out.reason? = op.failure? arg st := by
  cases h with
  | notInteger hop harg =>
      have hrefuses : op.refuses arg := by simpa [refuses, harg] using hop
      rw [failure?_of_refuses hrefuses, Numeral.errorOf?, harg]
      rfl
  | negative hop harg hn =>
      have hrefuses : op.refuses arg := by simp [refuses, harg, hop, hn]
      rw [failure?_of_refuses hrefuses, Numeral.errorOf?, harg]
      rfl
  | halt | load | text =>
      refine (failure?_of_deep (refuses_of_not_reads (by decide) rfl) ?_ rfl).symm
      exact Int.natCast_nonneg _
  | line harg | jump harg =>
      refine (failure?_of_deep (refuses_of_isCount harg) ?_ rfl).symm
      exact Int.natCast_nonneg _
  | integer harg =>
      have hread : refuses .integer arg = false := by simp [refuses, harg, readsCount]
      exact (failure?_of_deep hread (Int.natCast_nonneg _) rfl).symm
  | storeEmpty hstack =>
      have hdepth : (st.depth : Int) < needs arg .store := by simp [State.depth, hstack, needs]
      exact (failure?_of_shallow (refuses_of_not_reads (by decide) rfl) hdepth).symm
  | store hstack =>
      have hread : refuses .store arg = false := refuses_of_not_reads (by decide) rfl
      exact (failure?_of_deep hread (one_le_depth hstack) rfl).symm
  | shallow hop hdepth =>
      have hop' : op.refuses arg = false ∧ op.needs arg = 2 ∧ op.takesBlindly = false := by
        rcases hop with hop | rfl | ⟨rfl, n, harg⟩
        · obtain ⟨f, hf⟩ := Option.isSome_iff_exists.mp hop
          exact needs_of_operation? hf arg
        · exact ⟨refuses_of_not_reads (by decide) rfl, rfl, rfl⟩
        · exact ⟨refuses_of_isCount harg, rfl, rfl⟩
      obtain ⟨hread, hneeds, hlooks⟩ := hop'
      rw [failure?_of_shallow hread (by omega), hneeds, hlooks]
      rfl
  | operate hop hstack hv | refuse hop hstack hv =>
      rw [failure?_of_operation? hop hstack, hv]
      rfl
  | @short op n hop harg hdepth =>
      have hneeds : op.needs arg = n.toInt ∧ op.takesBlindly = false := by
        rcases hop with rfl | rfl
        · exact ⟨valueOf_of_isCount harg, rfl⟩
        · exact ⟨valueOf_of_isCount harg, rfl⟩
      rw [failure?_of_shallow (refuses_of_isCount harg) (by omega), hneeds.1, hneeds.2]
      rfl
  | dup harg hdepth | drop harg hdepth =>
      refine (failure?_of_deep (refuses_of_isCount harg) ?_ rfl).symm
      rw [needs, valueOf_of_isCount harg]
      exact hdepth
  | swap hstack =>
      have hread : refuses .swap arg = false := refuses_of_not_reads (by decide) rfl
      rw [failure?_of_operands hread rfl hstack]
      rfl
  | jumpEmpty hop harg hstack =>
      obtain ⟨hneeds, hblind, -⟩ := needs_of_condition? hop arg
      have hdepth : (st.depth : Int) < op.needs arg := by simp [State.depth, hstack, hneeds]
      rw [failure?_of_shallow (refuses_of_isCount harg) hdepth, hblind]
      rfl
  | jumpIf hop harg hstack | jumpUnless hop harg hstack =>
      obtain ⟨hneeds, -, hwants⟩ := needs_of_condition? hop arg
      have hdepth : op.needs arg ≤ st.depth := hneeds ▸ one_le_depth hstack
      exact (failure?_of_deep (refuses_of_isCount harg) hdepth hwants).symm
  | @repeatLimit n t counter rest harg hstack =>
      rw [failure?_of_operands (refuses_of_isCount harg) rfl hstack]
      simp [Fault.notInteger, wantsIntegers]
  | repeatCounter harg hstack | repeatLeave harg hstack | repeatBack harg hstack =>
      rw [failure?_of_operands (refuses_of_isCount harg) rfl hstack]
      rfl

theorem reason?_builtin_call (op : Opcode) (arg : Bytes) (st : State) :
    (Registry.builtin.call op.name arg st).reason? =
      (op.failure? arg st).map (.opcode op.name st.pointer) := by
  rw [← reason?_of_step (op.step_apply arg st)]
  cases happly : op.apply arg st with
  | done st' =>
      rw [Registry.builtin_call_of_done happly]
      rfl
  | failed fault st' =>
      rw [Registry.builtin_call_of_failed happly]
      rfl

theorem failure?_ne_negativeTarget (target : Int64) :
    op.failure? arg st ≠ some (.negativeTarget target) := by
  unfold failure?
  repeat' split
  all_goals simp

/-- When a call of a built-in instruction fails, and why. It fails for its argument, for
the depth of the stack, for the kind of an operand or for a division by zero, for the
first of these that applies in this order, and succeeds if none does. It never fails for
the target of a jump, which has been read as a count before; and where a number of values
is checked for, they can all be taken. -/
theorem call_fails_exactly (op : Opcode) (arg : Bytes) (st : State) :
    (Registry.builtin.call op.name arg st).reason? =
      (op.failure? arg st).map (.opcode op.name st.pointer) ∧
    (∀ target, (Registry.builtin.call op.name arg st).reason? ≠
      some (.opcode op.name st.pointer (.negativeTarget target))) ∧
    ∀ n, st.require n = .ok () ↔
      ∃ taken rest, st.stack = taken ++ rest ∧ taken.length = n.toNatClampNeg ∧
        st.popMany n.toNatClampNeg = .ok (taken, { st with stack := rest }) := by
  refine ⟨reason?_builtin_call op arg st, ?_, st.require_eq_ok_iff⟩
  intro target hreason
  rw [reason?_builtin_call, Option.map_eq_some_iff] at hreason
  obtain ⟨fault, hfault, heq⟩ := hreason
  cases heq
  exact failure?_ne_negativeTarget target hfault

/-- A negative count on an empty stack, and a text above a zero to divide by: what is
looked at first is reported. -/
example :
    failure? .dup "-1" {} = some (.badArgument .dup "-1" none) ∧
      failure? .div [] { stack := [.text "7", .integer 0] } =
        some (.kindMismatch (some (.integer, .text))) := by
  decide +kernel

end Opcode

end StackStep
