import StackStep.Proofs.Registry

/-!
Everything an instruction can do, said once.

`Opcode.apply` computes an outcome through a chain of checks, and a proof that
opens it meets the same checks every time. `Step arg st op out` lists the
outcomes instead, one constructor for each way an instruction ends, with what
must hold of the argument and of the stack for it to end so. The instructions
that work alike share their constructors. Proofs about all instructions go by
cases on `Step` and do not open `apply`: `step_apply` says that every outcome is
listed, and `apply_of_step` that every outcome listed comes about.

The last section takes this through the registry: a call by name is the step of
the one instruction of that name, or fails for want of one.
-/

namespace StackStep

structure IsCount (arg : Bytes) (n : Int64) : Prop where
  read : Numeral.read arg = .ok n
  nonneg : 0 ≤ n

/-- A stack without two values on it. -/
theorem depth_lt_two {st : State} (h : ∀ tos nos rest, st.stack = tos :: nos :: rest → False) :
    st.depth < 2 := by
  unfold State.depth
  match hstack : st.stack with
  | [] => simp
  | [v] => simp
  | tos :: nos :: rest => exact (h tos nos rest hstack).elim

theorem stack_of_depth_lt_two {st : State} (h : st.depth < 2) :
    st.stack = [] ∨ ∃ v, st.stack = [v] := by
  unfold State.depth at h
  match hstack : st.stack with
  | [] => exact .inl rfl
  | [v] => exact .inr ⟨v, rfl⟩
  | tos :: nos :: rest =>
      rw [hstack, List.length_cons, List.length_cons] at h
      omega

theorem State.goto_of_isCount {arg : Bytes} {n : Int64} (h : IsCount arg n) (st : State) :
    st.goto n = .done (st.jump n) := by
  rw [goto, if_neg (Int64.not_lt.mpr h.nonneg)]

namespace Opcode

def readsCount : Opcode → Bool
  | line | dup | drop | jump | jumpIfFalse | jumpIfTrue | repeatStep => true
  | _ => false

def operation? : Opcode → Option (Value → Value → Except Fault Value)
  | add => some (onIntegers fun t n => .ok (.integer (n + t)))
  | sub => some (onIntegers fun t n => .ok (.integer (t - n)))
  | div => some (onIntegers fun t n =>
      if n = 0 then .error .divisionByZero else .ok (.integer (t / n)))
  | mul => some (onIntegers fun t n => .ok (.integer (t * n)))
  | same => some fun t n => .ok (.ofBool (t = n))
  | differ => some fun t n => .ok (.ofBool (t ≠ n))
  | smaller => some (onIntegers fun t n => .ok (.ofBool (t < n)))
  | notSmaller => some (onIntegers fun t n => .ok (.ofBool (n ≤ t)))
  | _ => none

/-- The truth that makes a conditional jump jump. -/
def condition? : Opcode → Option Bool
  | jumpIfFalse => some false
  | jumpIfTrue => some true
  | _ => none

theorem eq_of_condition? {op : Opcode} {want : Bool} (hop : op.condition? = some want) :
    op = .jumpIfFalse ∨ op = .jumpIfTrue := by
  unfold condition? at hop
  split at hop
  · exact .inl rfl
  · exact .inr rfl
  · cases hop

inductive Step (arg : Bytes) (st : State) : Opcode → Outcome Fault → Prop where
  /-- The argument is no integer. -/
  | notInteger {op : Opcode} {e : NumeralError} (hop : op = .integer ∨ op.readsCount)
      (harg : Numeral.read arg = .error e) :
      Step arg st op (.failed (.badArgument op arg (some e)) st)
  /-- The argument is a negative integer where a count is needed. -/
  | negative {op : Opcode} {n : Int64} (hop : op.readsCount)
      (harg : Numeral.read arg = .ok n) (hn : n < 0) :
      Step arg st op (.failed (.badArgument op arg none) st)
  | halt : Step arg st .halt (.done st.terminate)
  | line {n : Int64} (harg : IsCount arg n) :
      Step arg st .line (.done { st.advance with line := n })
  | storeEmpty (hstack : st.stack = []) :
      Step arg st .store (.failed (.underflow none) st)
  | store {v : Value} {rest : List Value} (hstack : st.stack = v :: rest) :
      Step arg st .store (.done (({ st with stack := rest } : State).bind arg v).advance)
  | load : Step arg st .load (.done (st.push (st.env.lookup arg)).advance)
  | integer {n : Int64} (harg : Numeral.read arg = .ok n) :
      Step arg st .integer (.done (st.push (.integer n)).advance)
  | text : Step arg st .text (.done (st.push (.text arg)).advance)
  /-- Two operands are needed and there are fewer. -/
  | shallow {op : Opcode} (hop : op.operation?.isSome ∨ op = .swap ∨
        op = .repeatStep ∧ ∃ n, IsCount arg n) (hdepth : st.depth < 2) :
      Step arg st op (.failed (.underflow (some (2, st.depth))) st)
  | operate {op : Opcode} {f : Value → Value → Except Fault Value} {tos nos v : Value}
      {rest : List Value} (hop : op.operation? = some f)
      (hstack : st.stack = tos :: nos :: rest) (hv : f tos nos = .ok v) :
      Step arg st op (.done ({ st with stack := v :: rest } : State).advance)
  /-- The operands are refused, and gone. -/
  | refuse {op : Opcode} {f : Value → Value → Except Fault Value} {tos nos : Value}
      {rest : List Value} {fault : Fault} (hop : op.operation? = some f)
      (hstack : st.stack = tos :: nos :: rest) (hv : f tos nos = .error fault) :
      Step arg st op (.failed fault { st with stack := rest })
  /-- There are fewer values than the count says. -/
  | short {op : Opcode} {n : Int64} (hop : op = .dup ∨ op = .drop) (harg : IsCount arg n)
      (hdepth : (st.depth : Int) < n.toInt) :
      Step arg st op (.failed (.underflow (some (n.toInt, st.depth))) st)
  | dup {n : Int64} (harg : IsCount arg n) (hdepth : n.toInt ≤ st.depth) :
      Step arg st .dup (.done
        ({ st with stack := st.stack.take n.toNatClampNeg ++ st.stack } : State).advance)
  | drop {n : Int64} (harg : IsCount arg n) (hdepth : n.toInt ≤ st.depth) :
      Step arg st .drop (.done
        ({ st with stack := st.stack.drop n.toNatClampNeg } : State).advance)
  | swap {tos nos : Value} {rest : List Value} (hstack : st.stack = tos :: nos :: rest) :
      Step arg st .swap (.done ({ st with stack := nos :: tos :: rest } : State).advance)
  | jump {n : Int64} (harg : IsCount arg n) : Step arg st .jump (.done (st.jump n))
  | jumpEmpty {op : Opcode} {want : Bool} {n : Int64} (hop : op.condition? = some want)
      (harg : IsCount arg n) (hstack : st.stack = []) :
      Step arg st op (.failed (.underflow none) st)
  | jumpIf {op : Opcode} {want : Bool} {n : Int64} {v : Value} {rest : List Value}
      (hop : op.condition? = some want) (harg : IsCount arg n) (hstack : st.stack = v :: rest)
      (htruth : v.truthy = want) :
      Step arg st op (.done (({ st with stack := rest } : State).jump n))
  | jumpUnless {op : Opcode} {want : Bool} {n : Int64} {v : Value} {rest : List Value}
      (hop : op.condition? = some want) (harg : IsCount arg n) (hstack : st.stack = v :: rest)
      (htruth : v.truthy ≠ want) :
      Step arg st op (.done ({ st with stack := rest } : State).advance)
  | repeatLimit {n : Int64} {t : Bytes} {counter : Value} {rest : List Value}
      (harg : IsCount arg n) (hstack : st.stack = counter :: .text t :: rest) :
      Step arg st .repeatStep (.failed (.notInteger (.text t)) st)
  | repeatCounter {n e : Int64} {t : Bytes} {rest : List Value} (harg : IsCount arg n)
      (hstack : st.stack = .text t :: .integer e :: rest) :
      Step arg st .repeatStep (.failed (.notInteger (.text t)) st)
  | repeatLeave {n e : Int64} {rest : List Value} (harg : IsCount arg n)
      (hstack : st.stack = .integer e :: .integer e :: rest) :
      Step arg st .repeatStep (.done ({ st with stack := rest } : State).advance)
  | repeatBack {n e c : Int64} {rest : List Value} (harg : IsCount arg n)
      (hstack : st.stack = .integer c :: .integer e :: rest) (hne : c ≠ e) :
      Step arg st .repeatStep (.done (({ st with
        stack := .integer (if e < c then c - 1 else c + 1) :: .integer e :: rest } :
          State).jump n))

variable {arg : Bytes} {st : State} {op : Opcode}

/-- An instruction that reads a count first fails there, or goes on with it. -/
theorem step_readCount (hop : op.readsCount) {next : Int64 → Outcome Fault}
    (hnext : ∀ n, IsCount arg n → Step arg st op (next n)) :
    Step arg st op (.attempt (op.readCount arg) st next) := by
  cases harg : Numeral.read arg with
  | error e =>
      have hcount : op.readCount arg = .error (.badArgument op arg (some e)) := by
        simp [readCount, readInteger, harg]
      rw [hcount]
      exact .notInteger (.inr hop) harg
  | ok n =>
      by_cases hn : n < 0
      · have hcount : op.readCount arg = .error (.badArgument op arg none) := by
          simp [readCount, readInteger, harg, hn]
        rw [hcount]
        exact .negative hop harg hn
      · have hcount : op.readCount arg = .ok n := by
          simp [readCount, readInteger, harg, hn]
        rw [hcount]
        exact hnext n ⟨harg, Int64.not_lt.mp hn⟩

theorem step_binary {f : Value → Value → Except Fault Value} (hop : op.operation? = some f) :
    Step arg st op (st.binary f) := by
  unfold State.binary
  split
  · next tos nos rest hstack =>
      split
      · next v hv => exact .operate hop hstack hv
      · next fault hv => exact .refuse hop hstack hv
  · next hstack => exact .shallow (.inl (by simp [hop])) (depth_lt_two hstack)

theorem step_popJumpIf {want : Bool} (hop : op.condition? = some want) :
    Step arg st op (op.popJumpIf want arg st) := by
  have hcount : op.readsCount := by
    rcases eq_of_condition? hop with rfl | rfl <;> rfl
  refine step_readCount hcount ?_
  intro n harg
  unfold State.pop
  split
  · next hstack => exact .jumpEmpty hop harg hstack
  · next v rest hstack =>
      simp only [Outcome.attempt_ok]
      split
      · next htruth =>
          rw [State.goto_of_isCount harg]
          exact .jumpIf hop harg hstack htruth
      · next htruth => exact .jumpUnless hop harg hstack htruth

theorem step_stepCounter : Step arg st .repeatStep (repeatStep.stepCounter arg st) := by
  refine step_readCount rfl ?_
  intro n harg
  split
  · next counter limit rest hstack =>
      cases limit with
      | text t => exact .repeatLimit harg hstack
      | integer e =>
          cases counter with
          | text t => exact .repeatCounter harg hstack
          | integer c =>
              simp only
              split
              · next heq =>
                  subst heq
                  exact .repeatLeave harg hstack
              · next hne =>
                  rw [State.goto_of_isCount harg]
                  exact .repeatBack harg hstack hne
  · next hstack => exact .shallow (.inr (.inr ⟨rfl, n, harg⟩)) (depth_lt_two hstack)

theorem step_apply (op : Opcode) (arg : Bytes) (st : State) :
    Step arg st op (op.apply arg st) := by
  cases op with
  | halt => exact .halt
  | line => exact step_readCount rfl fun n harg => .line harg
  | store =>
      simp only [apply, State.pop]
      split
      · next hstack => exact .storeEmpty hstack
      · next v rest hstack => exact .store hstack
  | load => exact .load
  | integer =>
      simp only [apply, readInteger]
      cases harg : Numeral.read arg with
      | ok n => exact .integer harg
      | error e => exact .notInteger (.inl rfl) harg
  | text => exact .text
  | add | sub | div | mul | same | differ | smaller | notSmaller =>
      rw [apply]
      refine step_binary ?_
      rfl
  | dup =>
      refine step_readCount rfl ?_
      intro n harg
      unfold State.require
      split
      · next hdepth => exact .short (.inl rfl) harg hdepth
      · next hdepth => exact .dup harg (by omega)
  | drop =>
      refine step_readCount rfl ?_
      intro n harg
      unfold State.require
      split
      · next hdepth => exact .short (.inr rfl) harg hdepth
      · next hdepth => exact .drop harg (by omega)
  | swap =>
      simp only [apply]
      split
      · next tos nos rest hstack => exact .swap hstack
      · next hstack => exact .shallow (.inr (.inl rfl)) (depth_lt_two hstack)
  | jump =>
      refine step_readCount rfl ?_
      intro n harg
      rw [State.goto_of_isCount harg]
      exact .jump harg
  | jumpIfFalse => exact step_popJumpIf rfl
  | jumpIfTrue => exact step_popJumpIf rfl
  | repeatStep => exact step_stepCounter

theorem step_of_apply {out : Outcome Fault} (h : op.apply arg st = out) : Step arg st op out :=
  h ▸ step_apply op arg st

/-! ### Outcomes from their conditions

The converse, for proofs that know the stack and the argument and want to know what
happens. -/

theorem readCount_of_isCount {n : Int64} (h : IsCount arg n) : op.readCount arg = .ok n := by
  simp [readCount, readInteger, h.read, Int64.not_lt.mpr h.nonneg]

theorem apply_of_readCount_error {fault : Fault} (hop : op.readsCount)
    (h : op.readCount arg = .error fault) : op.apply arg st = .failed fault st := by
  cases op with
  | line | dup | drop | jump => simp only [apply, h, Outcome.attempt_error]
  | jumpIfFalse | jumpIfTrue => simp only [apply, popJumpIf, h, Outcome.attempt_error]
  | repeatStep => simp only [apply, stepCounter, h, Outcome.attempt_error]
  | halt | store | load | integer | text | add | sub | div | mul | same | differ | smaller
  | notSmaller | swap => cases hop

theorem apply_of_operation? {f : Value → Value → Except Fault Value}
    (hop : op.operation? = some f) : op.apply arg st = st.binary f := by
  cases op with
  | add | sub | div | mul | same | differ | smaller | notSmaller =>
      cases hop
      rfl
  | halt | line | store | load | integer | text | dup | drop | swap | jump | jumpIfFalse
  | jumpIfTrue | repeatStep => cases hop

theorem apply_of_condition? {want : Bool} (hop : op.condition? = some want) :
    op.apply arg st = op.popJumpIf want arg st := by
  rcases eq_of_condition? hop with rfl | rfl
  · cases hop
    rfl
  · cases hop
    rfl

theorem apply_of_step {out : Outcome Fault} (h : Step arg st op out) :
    op.apply arg st = out := by
  cases h with
  | notInteger hop harg =>
      rcases hop with rfl | hop
      · simp only [apply, readInteger, harg, Outcome.attempt_error]
      · exact apply_of_readCount_error hop (by simp only [readCount, readInteger, harg])
  | negative hop harg hn =>
      refine apply_of_readCount_error hop ?_
      simp only [readCount, readInteger, harg, if_pos hn]
  | halt | load | text => rfl
  | line harg => simp only [apply, readCount_of_isCount harg, Outcome.attempt_ok]
  | storeEmpty hstack => simp only [apply, State.pop, hstack, Outcome.attempt_error]
  | store hstack => simp only [apply, State.pop, hstack, Outcome.attempt_ok]
  | integer harg => simp only [apply, readInteger, harg, Outcome.attempt_ok]
  | shallow hop hdepth =>
      have hstack := stack_of_depth_lt_two hdepth
      rcases hop with hop | rfl | ⟨rfl, n, harg⟩
      · obtain ⟨f, hf⟩ := Option.isSome_iff_exists.mp hop
        rw [apply_of_operation? hf]
        rcases hstack with hstack | ⟨v, hstack⟩ <;> simp only [State.binary, hstack]
      · rcases hstack with hstack | ⟨v, hstack⟩ <;> simp only [apply, hstack]
      · rcases hstack with hstack | ⟨v, hstack⟩ <;>
          simp only [apply, stepCounter, readCount_of_isCount harg, Outcome.attempt_ok, hstack]
  | operate hop hstack hv | refuse hop hstack hv =>
      rw [apply_of_operation? hop]
      simp only [State.binary, hstack, hv]
  | short hop harg hdepth =>
      rcases hop with rfl | rfl <;>
        simp only [apply, readCount_of_isCount harg, Outcome.attempt_ok, State.require,
          if_pos hdepth, Outcome.attempt_error]
  | dup harg hdepth | drop harg hdepth =>
      simp only [apply, readCount_of_isCount harg, Outcome.attempt_ok, State.require,
        if_neg (Int.not_lt.mpr hdepth)]
  | swap hstack => simp only [apply, hstack]
  | jump harg =>
      simp only [apply, readCount_of_isCount harg, Outcome.attempt_ok,
        State.goto_of_isCount harg]
  | jumpEmpty hop harg hstack =>
      rw [apply_of_condition? hop]
      simp only [popJumpIf, readCount_of_isCount harg, Outcome.attempt_ok, State.pop, hstack,
        Outcome.attempt_error]
  | jumpIf hop harg hstack htruth =>
      rw [apply_of_condition? hop]
      simp only [popJumpIf, readCount_of_isCount harg, Outcome.attempt_ok, State.pop, hstack,
        if_pos htruth, State.goto_of_isCount harg]
  | jumpUnless hop harg hstack htruth =>
      rw [apply_of_condition? hop]
      simp only [popJumpIf, readCount_of_isCount harg, Outcome.attempt_ok, State.pop, hstack,
        if_neg htruth]
  | repeatLimit harg hstack | repeatCounter harg hstack | repeatLeave harg hstack =>
      simp only [apply, stepCounter, readCount_of_isCount harg, Outcome.attempt_ok, hstack,
        if_true]
  | repeatBack harg hstack hne =>
      simp only [apply, stepCounter, readCount_of_isCount harg, Outcome.attempt_ok, hstack,
        if_neg hne, State.goto_of_isCount harg]

end Opcode

/-! ### Calls by name -/

namespace Registry

theorem builtin_find?_name (op : Opcode) :
    builtin.find? op.name = some ⟨op.info, op.apply⟩ := by
  have hmem : (⟨op.info, op.apply⟩ : Entry) ∈ builtin.entries :=
    List.mem_map.mpr ⟨op, op.mem_all, rfl⟩
  have hfind := find?_name hmem
  rwa [Entry.name, Opcode.name_info] at hfind

theorem builtin_call_of_done {op : Opcode} {arg : Bytes} {st st' : State}
    (h : op.apply arg st = .done st') : builtin.call op.name arg st = .done st' := by
  simp only [call, builtin_find?_name, h]

theorem builtin_call_of_failed {op : Opcode} {arg : Bytes} {st st' : State} {fault : Fault}
    (h : op.apply arg st = .failed fault st') :
    builtin.call op.name arg st = .failed (.opcode op.name st.pointer fault) st' := by
  simp only [call, builtin_find?_name, h]

theorem builtin_call_unknown {name : Bytes} (h : ∀ op : Opcode, op.name ≠ name)
    (arg : Bytes) (st : State) :
    builtin.call name arg st = .failed (.unknownOpcode name) st := by
  have hnone : builtin.find? name = none := by
    rw [find?, List.find?_eq_none]
    intro e he
    obtain ⟨op, -, rfl⟩ := List.mem_map.mp he
    simpa [Entry.name] using h op
  rw [call, hnone]

/-- A call that succeeds is a step of the instruction of that name. -/
theorem builtin_call_eq_done {name arg : Bytes} {st st' : State} :
    builtin.call name arg st = .done st' ↔
      ∃ op : Opcode, op.name = name ∧ op.apply arg st = .done st' := by
  constructor
  · intro h
    by_cases hname : ∃ op : Opcode, op.name = name
    · obtain ⟨op, rfl⟩ := hname
      refine ⟨op, rfl, ?_⟩
      cases happly : op.apply arg st with
      | done st'' =>
          rw [builtin_call_of_done happly] at h
          cases h
          rfl
      | failed fault st'' =>
          rw [builtin_call_of_failed happly] at h
          cases h
    · rw [builtin_call_unknown (fun op hop => hname ⟨op, hop⟩)] at h
      cases h
  · rintro ⟨op, rfl, h⟩
    exact builtin_call_of_done h

/-- A call that fails is a failing step of the instruction of that name, or there is no
such instruction and nothing has happened. -/
theorem of_builtin_call_failed {name arg : Bytes} {st st' : State} {reason : CallError}
    (h : builtin.call name arg st = .failed reason st') :
    (∃ (op : Opcode) (fault : Fault), op.name = name ∧ op.apply arg st = .failed fault st' ∧
      reason = .opcode name st.pointer fault) ∨
    (∀ op : Opcode, op.name ≠ name) ∧ reason = .unknownOpcode name ∧ st' = st := by
  by_cases hname : ∃ op : Opcode, op.name = name
  · obtain ⟨op, rfl⟩ := hname
    cases happly : op.apply arg st with
    | done st'' =>
        rw [builtin_call_of_done happly] at h
        cases h
    | failed fault st'' =>
        rw [builtin_call_of_failed happly] at h
        cases h
        exact .inl ⟨op, fault, rfl, happly, rfl⟩
  · have hunknown : ∀ op : Opcode, op.name ≠ name := fun op hop => hname ⟨op, hop⟩
    rw [builtin_call_unknown hunknown] at h
    cases h
    exact .inr ⟨hunknown, rfl, rfl⟩

end Registry

theorem Opcode.name_injective {op op' : Opcode} (h : op.name = op'.name) : op = op' := by
  have hnames : (all.map name).Nodup := by
    simpa [Registry.builtin, Entry.name, Function.comp_def] using Registry.builtin.distinct
  have hop := Registry.find?_of_nodup hnames op.mem_all
  rw [h, Registry.find?_of_nodup hnames op'.mem_all] at hop
  exact (Option.some.inj hop).symm

end StackStep
