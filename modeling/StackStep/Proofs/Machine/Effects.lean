import StackStep.Proofs.Machine.Step

/-!
What is declared about an instruction, and what it does.

The declarations are written for people. The listing and the editor service show
them, and no instruction looks at them, so nothing in the running of the machine
would notice a wrong one. Here they are held against the steps: a declared effect is
the number of values that a step takes from the top of the stack and of those that
it puts in their place, and an argument declared as unused has no influence on
anything. Three instructions declare that their effect depends on the argument or on
what they find, and for these it is said what the stack becomes.
-/

namespace StackStep

def State.lowest (st : State) (n : Nat) : List Value := st.stack.drop (st.depth - n)

def Replaces (pops pushes : Nat) (before after : List Value) : Prop :=
  ∃ taken put rest, before = taken ++ rest ∧ after = put ++ rest ∧
    taken.length = pops ∧ put.length = pushes

namespace Replaces

variable {pops pushes : Nat} {st st' : State}

theorem pops_le_depth (h : Replaces pops pushes st.stack st'.stack) : pops ≤ st.depth := by
  obtain ⟨taken, put, rest, hbefore, -, rfl, -⟩ := h
  rw [State.depth, hbefore, List.length_append]
  omega

theorem depth_eq (h : Replaces pops pushes st.stack st'.stack) :
    st'.depth = st.depth - pops + pushes := by
  obtain ⟨taken, put, rest, hbefore, hafter, rfl, rfl⟩ := h
  rw [State.depth, State.depth, hbefore, hafter, List.length_append, List.length_append]
  omega

theorem lowest_eq (h : Replaces pops pushes st.stack st'.stack) :
    st'.lowest (st.depth - pops) = st.lowest (st.depth - pops) := by
  have hpops := h.pops_le_depth
  have hdepth := h.depth_eq
  obtain ⟨taken, put, rest, hbefore, hafter, hpopsLength, hpushesLength⟩ := h
  have hafterDrop : st'.depth - (st.depth - pops) = put.length := by omega
  have hbeforeDrop : st.depth - (st.depth - pops) = taken.length := by omega
  rw [State.lowest, State.lowest, hafterDrop, hbeforeDrop, hbefore, hafter, List.drop_left,
    List.drop_left]

end Replaces

namespace Opcode

variable {op : Opcode} {arg : Bytes} {st st' : State}

theorem effect_of_operation? {f : Value → Value → Except Fault Value}
    (hop : op.operation? = some f) : op.info.pops = 2 ∧ op.info.pushes = 1 := by
  cases op with
  | add | sub | div | mul | same | differ | smaller | notSmaller => exact ⟨rfl, rfl⟩
  | halt | line | store | load | integer | text | dup | drop | swap | jump | jumpIfFalse
  | jumpIfTrue | repeatStep => cases hop

theorem effect_of_condition? {want : Bool} (hop : op.condition? = some want) :
    op.info.pops = 1 ∧ op.info.pushes = 0 := by
  rcases eq_of_condition? hop with rfl | rfl
  · exact ⟨rfl, rfl⟩
  · exact ⟨rfl, rfl⟩

/-- A step has the effect that is declared. -/
theorem Step.replaces (h : Step arg st op (.done st')) (hpops : 0 ≤ op.info.pops)
    (hpushes : 0 ≤ op.info.pushes) :
    Replaces op.info.pops.toNat op.info.pushes.toNat st.stack st'.stack := by
  cases h with
  | halt | line | jump => exact ⟨[], [], st.stack, rfl, rfl, rfl, rfl⟩
  | load | integer | text => exact ⟨[], [_], st.stack, rfl, rfl, rfl, rfl⟩
  | store hstack => exact ⟨[_], [], _, hstack, rfl, rfl, rfl⟩
  | swap hstack => exact ⟨[_, _], [_, _], _, hstack, rfl, rfl, rfl⟩
  | operate hop hstack hv =>
      rw [(effect_of_operation? hop).1, (effect_of_operation? hop).2]
      exact ⟨[_, _], [_], _, hstack, rfl, rfl, rfl⟩
  | jumpIf hop harg hstack | jumpUnless hop harg hstack =>
      rw [(effect_of_condition? hop).1, (effect_of_condition? hop).2]
      exact ⟨[_], [], _, hstack, rfl, rfl, rfl⟩
  | dup | drop | repeatLeave | repeatBack => exact absurd hpops (by decide)

theorem Step.stack_of_dup (h : Step arg st .dup (.done st')) :
    ∃ c, IsCount arg c ∧ c.toInt ≤ st.depth ∧
      st'.stack = st.stack.take c.toNatClampNeg ++ st.stack := by
  cases h with
  | dup harg hdepth => exact ⟨_, harg, hdepth, rfl⟩
  | operate hop | jumpIf hop | jumpUnless hop => cases hop

theorem Step.stack_of_drop (h : Step arg st .drop (.done st')) :
    ∃ c, IsCount arg c ∧ c.toInt ≤ st.depth ∧
      st'.stack = st.stack.drop c.toNatClampNeg := by
  cases h with
  | drop harg hdepth => exact ⟨_, harg, hdepth, rfl⟩
  | operate hop | jumpIf hop | jumpUnless hop => cases hop

/-- The counter meets its limit and both are gone, or the counter alone changes. -/
theorem Step.stack_of_repeatStep (h : Step arg st .repeatStep (.done st')) :
    ∃ counter limit rest, st.stack = counter :: limit :: rest ∧
      (counter = limit ∧ st'.stack = rest ∨
        counter ≠ limit ∧ ∃ next, next ≠ counter ∧ st'.stack = next :: limit :: rest) := by
  cases h with
  | operate hop | jumpIf hop | jumpUnless hop => cases hop
  | repeatLeave harg hstack => exact ⟨_, _, _, hstack, .inl ⟨rfl, rfl⟩⟩
  | @repeatBack n e c rest harg hstack hne =>
      refine ⟨_, _, _, hstack, .inr ⟨?_, _, ?_, rfl⟩⟩
      · intro heq
        exact hne (Value.integer.inj heq)
      · intro heq
        have hnext : (if e < c then c - 1 else c + 1) = c := Value.integer.inj heq
        split at hnext
        · grind
        · grind

/-- Where no argument is declared, none is looked at. -/
theorem apply_of_arg_nil (h : op.info.arg = []) (arg arg' : Bytes) (st : State) :
    op.apply arg st = op.apply arg' st := by
  cases op with
  | halt | add | sub | div | mul | same | differ | smaller | notSmaller | swap => rfl
  | line | store | load | integer | text | dup | drop | jump | jumpIfFalse | jumpIfTrue
  | repeatStep => exact absurd h (by decide)

theorem info?_name (op : Opcode) : Registry.builtin.info? op.name = some op.info := by
  rw [Registry.info?, Registry.builtin_find?_name]
  rfl

/-- The declarations are kept. Where both effects are declared as numbers, a call that
succeeds takes and puts as many values as declared and leaves those beneath alone; the
three other instructions do to the stack what their documentation says; and where no
argument is declared, the outcome is the same whatever the argument. -/
theorem declarations_kept (op : Opcode) (arg : Bytes) (st : State) :
    Registry.builtin.info? op.name = some op.info ∧
    (∀ st', Registry.builtin.call op.name arg st = .done st' →
      (0 ≤ op.info.pops → 0 ≤ op.info.pushes →
        op.info.pops ≤ st.depth ∧
        (st'.depth : Int) = st.depth - op.info.pops + op.info.pushes ∧
        st'.lowest (st.depth - op.info.pops.toNat) =
          st.lowest (st.depth - op.info.pops.toNat)) ∧
      (op = .dup → ∃ c, Numeral.read arg = .ok c ∧ 0 ≤ c ∧ c.toInt ≤ st.depth ∧
        st'.stack = st.stack.take c.toNatClampNeg ++ st.stack) ∧
      (op = .drop → ∃ c, Numeral.read arg = .ok c ∧ 0 ≤ c ∧ c.toInt ≤ st.depth ∧
        st'.stack = st.stack.drop c.toNatClampNeg) ∧
      (op = .repeatStep → ∃ counter limit rest, st.stack = counter :: limit :: rest ∧
        (counter = limit ∧ st'.stack = rest ∨
          counter ≠ limit ∧ ∃ next, next ≠ counter ∧ st'.stack = next :: limit :: rest))) ∧
    (op.info.arg = [] → ∀ arg',
      Registry.builtin.call op.name arg st = Registry.builtin.call op.name arg' st) := by
  refine ⟨info?_name op, ?_, ?_⟩
  · intro st' hcall
    obtain ⟨op', hname, happly⟩ := Registry.builtin_call_eq_done.mp hcall
    obtain rfl : op' = op := name_injective hname
    have hstep := step_of_apply happly
    refine ⟨?_, ?_, ?_, ?_⟩
    · intro hpops hpushes
      have hreplaces := hstep.replaces hpops hpushes
      have hle := hreplaces.pops_le_depth
      have hdepth := hreplaces.depth_eq
      exact ⟨by omega, by omega, hreplaces.lowest_eq⟩
    · rintro rfl
      obtain ⟨c, harg, hdepth, hstack⟩ := hstep.stack_of_dup
      exact ⟨c, harg.read, harg.nonneg, hdepth, hstack⟩
    · rintro rfl
      obtain ⟨c, harg, hdepth, hstack⟩ := hstep.stack_of_drop
      exact ⟨c, harg.read, harg.nonneg, hdepth, hstack⟩
    · rintro rfl
      exact hstep.stack_of_repeatStep
  · intro harg arg'
    have happly := apply_of_arg_nil harg arg arg' st
    simp only [Registry.call, Registry.builtin_find?_name, happly]

/-- A swap that is given an argument, a count in white space, and a counter above its
limit. -/
theorem declarations_kept_mixed :
    let st : State := { stack := [.integer 7, .integer 5, .text "a"] }
    let swapped : State := { stack := [.integer 5, .integer 7, .text "a"], pointer := 1 }
    let shorter : State := { stack := [.text "a"], pointer := 1 }
    let back : State := { stack := [.integer 6, .integer 5, .text "a"] }
    Registry.builtin.call "ROT_TWO" "2" st = .done swapped ∧
      (swapped.depth : Int) = st.depth - 2 + 2 ∧ swapped.lowest 1 = st.lowest 1 ∧
      Registry.builtin.call "ROT_TWO" "2" st = Registry.builtin.call "ROT_TWO" [] st ∧
      Registry.builtin.call "POP_TOPX" " 2 " st = .done shorter ∧
      (∃ c, Numeral.read " 2 " = .ok c ∧ shorter.stack = st.stack.drop c.toNatClampNeg) ∧
      Registry.builtin.call "REPEAT_STEP" "0" st = .done back ∧
      ∃ next, next ≠ .integer 7 ∧ back.stack = [next, .integer 5, .text "a"] := by
  intro st swapped shorter back
  have hswap : Registry.builtin.call "ROT_TWO" "2" st = .done swapped := by decide +kernel
  have hdrop : Registry.builtin.call "POP_TOPX" " 2 " st = .done shorter := by decide +kernel
  have hback : Registry.builtin.call "REPEAT_STEP" "0" st = .done back := by decide +kernel
  obtain ⟨-, hswapped, hunused⟩ := declarations_kept .swap "2" st
  obtain ⟨hdeclared, -⟩ := hswapped swapped hswap
  obtain ⟨-, hdepth, hlowest⟩ := hdeclared (by decide) (by decide)
  obtain ⟨-, -, hcount, -⟩ := (declarations_kept .drop " 2 " st).2.1 shorter hdrop
  obtain ⟨c, hread, -, -, hshorter⟩ := hcount rfl
  obtain ⟨-, -, -, hcounter⟩ := (declarations_kept .repeatStep "0" st).2.1 back hback
  obtain ⟨counter, limit, rest, hstack, hends⟩ := hcounter rfl
  cases hstack
  obtain ⟨heq, -⟩ | ⟨-, hnext⟩ := hends
  · cases heq
  · exact ⟨hswap, hdepth, hlowest, hunused rfl [], hdrop, ⟨c, hread, hshorter⟩, hback, hnext⟩

end Opcode

end StackStep
