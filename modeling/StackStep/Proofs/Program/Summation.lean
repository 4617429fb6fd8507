import Mathlib.Algebra.BigOperators.Group.Finset.Basic
import Mathlib.Algebra.Order.Interval.Finset.SuccPred
import Mathlib.Data.Int.Interval
import Mathlib.Data.Int.SuccPred
import StackStep.Proofs.Machine.Counter
import StackStep.Proofs.Program.Run
import StackStep.Proofs.Text.Numeral

/-!
A loop that adds up the integers from one word to another.

The loop keeps its limit and its counter on the stack, above whatever was there, and
its sum in a variable. It tests for the end twice: by comparing the two before the
counter is moved, and in the counter instruction itself, which would go on to the
jump behind it with both of them gone. The first test always comes in time, so the
counter instruction only ever goes back, and the jump is never reached.

One round adds the counter and moves it one step toward the limit, in whichever
direction that is. What is left to add is then the sum over the rest of the way, and
the number of rounds is the distance, so everything follows by induction on it.
-/

namespace StackStep

/-- The integers between two different words are the first of them and those from the next
one on. -/
theorem sum_toward {e c : Int64} (h : c ≠ e) :
    ∑ n ∈ Finset.uIcc c.toInt e.toInt, n =
      c.toInt + ∑ n ∈ Finset.uIcc (toward e c).toInt e.toInt, n := by
  have hne : c.toInt ≠ e.toInt := fun heq => h (Int64.toInt_inj.mp heq)
  rw [toInt_toward h]
  rcases Int.lt_or_lt_of_ne hne with hlt | hlt
  · rw [Int.sign_eq_one_of_pos (by omega), Finset.uIcc_of_le (by omega),
      Finset.uIcc_of_le (by omega),
      ← Finset.insert_Icc_add_one_left_eq_Icc (Int.le_of_lt hlt)]
    exact Finset.sum_insert (by simp)
  · rw [Int.sign_eq_neg_one_of_neg (by omega), Finset.uIcc_of_ge (by omega),
      Finset.uIcc_of_ge (by omega),
      ← Finset.insert_Icc_sub_one_right_eq_Icc (Int.le_of_lt hlt)]
    exact Finset.sum_insert (by simp)

/-- The sum of the integers between two words, in either order, as a word. -/
def sumBetween (c e : Int64) : Int64 := Int64.ofInt (∑ n ∈ Finset.uIcc c.toInt e.toInt, n)

theorem sumBetween_self (c : Int64) : sumBetween c c = c := by
  rw [sumBetween, Finset.uIcc_self, Finset.sum_singleton, Int64.ofInt_toInt]

theorem sumBetween_toward {e c : Int64} (h : c ≠ e) :
    sumBetween c e = c + sumBetween (toward e c) e := by
  rw [sumBetween, sum_toward h, Int64.ofInt_add, Int64.ofInt_toInt, sumBetween]

/-! ### The instructions of the loop

Each on the stack that it finds there. -/

namespace Opcode

variable {arg : Bytes} {st : State} {t rest : List Value} {v : Value} {n : Int64}

theorem step_load (h : st.env.lookup arg = v) :
    Opcode.load.Step arg st (.done (st.push v).advance) := by
  rw [← h]
  exact .load

theorem toInt_le_depth (harg : IsCount arg n) (ht : t.length = n.toNatClampNeg)
    (hstack : st.stack = t ++ rest) : n.toInt ≤ st.depth := by
  have hnonneg : 0 ≤ n.toInt := Int64.le_iff_toInt_le.mp harg.nonneg
  rw [← Int64.toNat_toInt] at ht
  rw [State.depth, hstack, List.length_append]
  omega

theorem step_dup (harg : IsCount arg n) (ht : t.length = n.toNatClampNeg)
    (hstack : st.stack = t ++ rest) :
    Opcode.dup.Step arg st (.done ({ st with stack := t ++ (t ++ rest) } : State).advance) := by
  have hstep : Opcode.dup.Step arg st _ := .dup harg (toInt_le_depth harg ht hstack)
  rw [hstack, ← ht, List.take_left] at hstep
  exact hstep

theorem step_drop (harg : IsCount arg n) (ht : t.length = n.toNatClampNeg)
    (hstack : st.stack = t ++ rest) :
    Opcode.drop.Step arg st (.done ({ st with stack := rest } : State).advance) := by
  have hstep : Opcode.drop.Step arg st _ := .drop harg (toInt_le_depth harg ht hstack)
  rw [hstack, ← ht, List.drop_left] at hstep
  exact hstep

theorem step_add {a b : Int64} (hstack : st.stack = .integer b :: .integer a :: rest) :
    Opcode.add.Step arg st
      (.done ({ st with stack := .integer (a + b) :: rest } : State).advance) :=
  .operate rfl hstack rfl

theorem step_same {a b : Value} (hstack : st.stack = b :: a :: rest) :
    Opcode.same.Step arg st
      (.done ({ st with stack := .ofBool (b = a) :: rest } : State).advance) :=
  .operate rfl hstack rfl

theorem step_jumpIfTrue (harg : IsCount arg n) (hstack : st.stack = .ofBool true :: rest) :
    Opcode.jumpIfTrue.Step arg st (.done (({ st with stack := rest } : State).jump n)) :=
  .jumpIf rfl harg hstack rfl

theorem step_jumpIfTrue_not (harg : IsCount arg n) (hstack : st.stack = .ofBool false :: rest) :
    Opcode.jumpIfTrue.Step arg st (.done ({ st with stack := rest } : State).advance) :=
  .jumpUnless rfl harg hstack (by decide)

end Opcode

namespace Env

theorem find?_bind (env : Env) (name x : Bytes) (v : Value) :
    (env.bind name v).find? x = if x = name then some v else env.find? x :=
  Dict.find?_insert env name x v

theorem lookup_of_find? {env : Env} {x : Bytes} {v : Value} (h : env.find? x = some v) :
    env.lookup x = v := by
  rw [lookup, h]
  rfl

end Env

/-! ### The program -/

namespace Program

/-- Adds up the integers from `first` to `last`, in either direction, in `total`. -/
def sumLoop (first last : Int64) : Program :=
  [⟨"LOAD_INTEGER", "0"⟩,
    ⟨"STORE", "total"⟩,
    ⟨"LOAD_INTEGER", Bytes.ofInt64 last⟩,
    ⟨"LOAD_INTEGER", Bytes.ofInt64 first⟩,
    -- 4: a round begins
    ⟨"DUP_TOPX", "1"⟩,
    ⟨"STORE", "i"⟩,
    ⟨"LOAD", "total"⟩,
    ⟨"LOAD", "i"⟩,
    ⟨"BINARY_ADD", []⟩,
    ⟨"STORE", "total"⟩,
    ⟨"DUP_TOPX", "2"⟩,
    ⟨"COMPARE_SAME", []⟩,
    ⟨"POP_JUMP_IF_TRUE", "15"⟩,
    ⟨"REPEAT_STEP", "4"⟩,
    -- 14: never reached
    ⟨"JUMP", "4"⟩,
    -- 15: the way out
    ⟨"POP_TOPX", "2"⟩,
    ⟨"END", []⟩]

variable {first last e c sum : Int64} {st : State} {rest : List Value} {env : Env}

/-- A round up to its test. -/
theorem walk_round (hrunning : ¬st.terminated)
    (htotal : env.find? "total" = some (.integer sum)) :
    (sumLoop first last).Walk [4, 5, 6, 7, 8, 9, 10, 11]
      { st with pointer := 4, stack := .integer c :: .integer e :: rest, env := env }
      { st with
        pointer := 12
        stack := .ofBool (Value.integer c = .integer e) :: .integer c :: .integer e :: rest
        env := (env.bind "i" (.integer c)).bind "total" (.integer (sum + c)) } := by
  have hi : (env.bind "i" (.integer c)).lookup "i" = .integer c :=
    Env.lookup_of_find? (by rw [Env.find?_bind, if_pos rfl])
  have hsum : (env.bind "i" (.integer c)).lookup "total" = .integer sum :=
    Env.lookup_of_find? (by rw [Env.find?_bind, if_neg (by decide), htotal])
  refine .step hrunning rfl rfl
    (Opcode.step_dup (t := [.integer c]) (n := 1) ⟨rfl, by decide⟩ rfl rfl) ?_
  refine .step hrunning rfl rfl (.store rfl) ?_
  refine .step hrunning rfl rfl (Opcode.step_load hsum) ?_
  refine .step hrunning rfl rfl (Opcode.step_load hi) ?_
  refine .step hrunning rfl rfl (Opcode.step_add rfl) ?_
  refine .step hrunning rfl rfl (.store rfl) ?_
  refine .step hrunning rfl rfl
    (Opcode.step_dup (t := [.integer c, .integer e]) (n := 2) ⟨rfl, by decide⟩ rfl rfl) ?_
  refine .step hrunning rfl rfl (Opcode.step_same rfl) ?_
  exact .nil _

/-- The two are different: the counter is moved and the next round begins. -/
theorem walk_back (hrunning : ¬st.terminated) (hne : c ≠ e) :
    (sumLoop first last).Walk [12, 13]
      { st with
        pointer := 12
        stack := .ofBool (Value.integer c = .integer e) :: .integer c :: .integer e :: rest
        env := env }
      { st with
        pointer := 4
        stack := .integer (toward e c) :: .integer e :: rest
        env := env } := by
  have hdiffer : decide (Value.integer c = .integer e) = false :=
    decide_eq_false fun heq => hne (Value.integer.inj heq)
  rw [hdiffer]
  refine .step hrunning rfl rfl
    (Opcode.step_jumpIfTrue_not (n := 15) ⟨rfl, by decide⟩ rfl) ?_
  refine .step hrunning rfl rfl (.repeatBack (n := 4) ⟨rfl, by decide⟩ rfl hne) ?_
  exact .nil _

/-- The counter has come to the limit: both are dropped, and the run ends. -/
theorem walk_out (hrunning : ¬st.terminated) :
    (sumLoop first last).Walk [12, 15, 16]
      { st with
        pointer := 12
        stack := .ofBool (Value.integer e = .integer e) :: .integer e :: .integer e :: rest
        env := env }
      { st with pointer := 16, terminated := true, stack := rest, env := env } := by
  rw [decide_eq_true rfl]
  refine .step hrunning rfl rfl
    (Opcode.step_jumpIfTrue (n := 15) ⟨rfl, by decide⟩ rfl) ?_
  refine .step hrunning rfl rfl
    (Opcode.step_drop (t := [.integer e, .integer e]) (n := 2) ⟨rfl, by decide⟩ rfl rfl) ?_
  refine .step hrunning rfl rfl .halt ?_
  exact .nil _

/-- The places of the last `n + 1` rounds. -/
def roundPlaces : Nat → List Int64
  | 0 => [4, 5, 6, 7, 8, 9, 10, 11] ++ [12, 15, 16]
  | n + 1 => [4, 5, 6, 7, 8, 9, 10, 11] ++ [12, 13] ++ roundPlaces n

theorem length_roundPlaces (n : Nat) : (roundPlaces n).length = 10 * n + 11 := by
  induction n with
  | zero => rfl
  | succ n ih =>
      rw [roundPlaces, List.length_append, ih]
      change 10 + (10 * n + 11) = 10 * (n + 1) + 11
      omega

theorem ne_of_mem_roundPlaces {n : Nat} {place : Int64} (h : place ∈ roundPlaces n) :
    place ≠ 14 := by
  induction n with
  | zero =>
      rintro rfl
      exact absurd h (by decide)
  | succ n ih =>
      rcases List.mem_append.mp h with h | h
      · rintro rfl
        exact absurd h (by decide)
      · exact ih h

/-- The variables after the loop: its own two have been set, and no other. -/
structure Sums (before after : Env) (sum i : Int64) : Prop where
  total : after.find? "total" = some (.integer sum)
  counter : after.find? "i" = some (.integer i)
  other : ∀ x : Bytes, x ≠ "total" → x ≠ "i" → after.find? x = before.find? x

theorem sums_bind (env : Env) (sum c : Int64) :
    Sums env ((env.bind "i" (.integer c)).bind "total" (.integer sum)) sum c where
  total := by rw [Env.find?_bind, if_pos rfl]
  counter := by rw [Env.find?_bind, if_neg (by decide), Env.find?_bind, if_pos rfl]
  other := by
    intro x htotal hi
    rw [Env.find?_bind, if_neg htotal, Env.find?_bind, if_neg hi]

theorem Sums.trans {mid after : Env} {sum' c' : Int64} (h : Sums env mid sum c)
    (h' : Sums mid after sum' c') : Sums env after sum' c' where
  total := h'.total
  counter := h'.counter
  other := fun x htotal hi => (h'.other x htotal hi).trans (h.other x htotal hi)

/-- All rounds that are left. -/
theorem walk_rounds (hrunning : ¬st.terminated)
    (htotal : env.find? "total" = some (.integer sum)) :
    ∃ after, Sums env after (sum + sumBetween c e) e ∧
      (sumLoop first last).Walk (roundPlaces (distance e c))
        { st with pointer := 4, stack := .integer c :: .integer e :: rest, env := env }
        { st with pointer := 16, terminated := true, stack := rest, env := after } := by
  -- By induction on the distance: a round leaves one less, and a sum that starts one further.
  induction hn : distance e c generalizing c sum env with
  | zero =>
      obtain rfl : c = e := distance_eq_zero_iff.mp hn
      refine ⟨_, sums_bind env _ c, ?_⟩
      rw [sumBetween_self]
      exact (walk_round hrunning htotal).append (walk_out hrunning)
  | succ n ih =>
      have hne : c ≠ e := by
        intro heq
        rw [distance_eq_zero_iff.mpr heq] at hn
        cases hn
      have hround := sums_bind env (sum + c) c
      have hleft : distance e (toward e c) = n := by
        have hdistance := distance_toward hne
        omega
      obtain ⟨after, hsums, hrest⟩ := ih hround.total hleft
      refine ⟨after, ?_, ?_⟩
      · rw [sumBetween_toward hne, ← Int64.add_assoc]
        exact hround.trans hsums
      · exact ((walk_round hrunning htotal).append (walk_back hrunning hne)).append hrest

theorem walk_start (hrunning : ¬st.terminated) :
    (sumLoop first last).Walk [0, 1, 2, 3] { st with pointer := 0 }
      { st with
        pointer := 4
        stack := .integer first :: .integer last :: st.stack
        env := st.env.bind "total" (.integer 0) } := by
  refine .step hrunning rfl rfl (.integer (n := 0) rfl) ?_
  refine .step hrunning rfl rfl (.store rfl) ?_
  refine .step hrunning rfl rfl (.integer (Numeral.read_ofInt64 last)) ?_
  refine .step hrunning rfl rfl (.integer (Numeral.read_ofInt64 first)) ?_
  exact .nil _

/-- The whole way through the program. -/
theorem walk_sumLoop (first last : Int64) (hrunning : ¬st.terminated) :
    ∃ after, Sums st.env after (sumBetween first last) last ∧
      (sumLoop first last).Walk ([0, 1, 2, 3] ++ roundPlaces (distance last first))
        { st with pointer := 0 } { st with pointer := 16, terminated := true, env := after } := by
  have htotal : (st.env.bind "total" (.integer 0)).find? "total" = some (.integer 0) := by
    rw [Env.find?_bind, if_pos rfl]
  obtain ⟨after, hsums, hrounds⟩ :=
    @walk_rounds first last last first 0 st st.stack _ hrunning htotal
  rw [Int64.zero_add] at hsums
  refine ⟨after, ⟨hsums.total, hsums.counter, ?_⟩, (walk_start hrunning).append hrounds⟩
  intro x hx hi
  rw [hsums.other x hx hi, Env.find?_bind, if_neg hx]

/-- The loop, started with any two words on any state that is not at its end, ends after
ten steps for each integer between them and five more. It leaves the sum of these
integers, as a word, and the last of them in its two variables, and everything else that
it does not have to change as it was. -/
theorem sumLoop_adds_up (first last : Int64) (st : State) (fuel : Nat)
    (hrunning : ¬st.terminated) (hpointer : st.pointer = 0)
    (hfuel : 10 * (distance last first + 1) + 5 ≤ fuel) :
    ((sumLoop first last).run fuel st).stop = .terminated ∧
    ((sumLoop first last).run fuel st).trace.length = 10 * (distance last first + 1) + 5 ∧
    ((sumLoop first last).run fuel st).state.env.find? "total" =
      some (.integer (Int64.ofInt (∑ n ∈ Finset.uIcc first.toInt last.toInt, n))) ∧
    ((sumLoop first last).run fuel st).state.env.find? "i" = some (.integer last) ∧
    (∀ x : Bytes, x ≠ "total" → x ≠ "i" →
      ((sumLoop first last).run fuel st).state.env.find? x = st.env.find? x) ∧
    ((sumLoop first last).run fuel st).state.line = st.line ∧
    ((sumLoop first last).run fuel st).state.stack = st.stack ∧
    ∀ place ∈ (sumLoop first last).executed fuel st, place.1 ≠ 14 := by
  obtain ⟨after, hsums, hwalk⟩ := walk_sumLoop first last hrunning
  have hst : ({ st with pointer := 0 } : State) = st := by rw [← hpointer]
  rw [hst] at hwalk
  have hlength : ([0, 1, 2, 3] ++ roundPlaces (distance last first)).length =
      10 * (distance last first + 1) + 5 := by
    rw [List.length_append, length_roundPlaces]
    change 4 + (10 * distance last first + 11) = _
    omega
  obtain ⟨hstop, hstate, htrace, hexecuted⟩ :=
    hwalk.run_of_terminated rfl (Nat.le_trans (Nat.le_of_eq hlength) hfuel)
  rw [hstate, htrace]
  refine ⟨hstop, hlength, hsums.total, hsums.counter, hsums.other, rfl, rfl, ?_⟩
  intro place hplace
  rw [hexecuted] at hplace
  obtain ⟨pointer, hpointer, rfl⟩ := List.mem_map.mp hplace
  rcases List.mem_append.mp hpointer with hstart | hround
  · rintro rfl
    exact absurd hstart (by decide)
  · exact ne_of_mem_roundPlaces hround

/-- Downward from the largest word, with a text under the loop and an older total. -/
theorem sumLoop_adds_up_downward :
    let first : Int64 := Int64.maxValue
    let last : Int64 := Int64.maxValue - 1
    let st : State :=
      { stack := [.text "a"]
        env := Dict.ofList [("total", .text "b"), ("x", .integer 7)]
        line := 3 }
    distance last first = 1 ∧
      ((sumLoop first last).run 25 st).trace.length = 25 ∧
      ((sumLoop first last).run 25 st).state.env.find? "total" = some (.integer (-3)) ∧
      ((sumLoop first last).run 25 st).state.env.find? "x" = some (.integer 7) ∧
      ((sumLoop first last).run 25 st).state.stack = [.text "a"] := by
  intro first last st
  have hdistance : distance last first = 1 := by decide
  have hsum : Int64.ofInt (∑ n ∈ Finset.uIcc first.toInt last.toInt, n) = -3 := by decide +kernel
  obtain ⟨-, htrace, htotal, -, hother, -, hstack, -⟩ :=
    sumLoop_adds_up first last st 25 (by decide) rfl (by rw [hdistance])
  rw [hdistance] at htrace
  rw [hsum] at htotal
  refine ⟨hdistance, htrace, htotal, ?_, hstack⟩
  rw [hother "x" (by decide) (by decide)]
  decide

end Program

end StackStep
