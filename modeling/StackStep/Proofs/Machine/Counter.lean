import StackStep.Proofs.Machine.Writers
import StackStep.Proofs.Word

/-!
A counter that is moved toward its limit.

The limit and the counter are any two words, so their distance may be as large as
2^64 - 1 and is no word itself. Each call moves the counter by one in the direction
in which the limit lies at that moment. Since it does not pass the limit, it does not
wrap either, and the direction never changes before the two meet. The distance is
therefore the number of calls that go back, and the call after these leaves.
-/

namespace StackStep

def toward (e c : Int64) : Int64 := if e < c then c - 1 else c + 1

variable {e c : Int64}

theorem toInt_toward (h : c ≠ e) :
    (toward e c).toInt = c.toInt + (e.toInt - c.toInt).sign := by
  have hne : c.toInt ≠ e.toInt := fun heq => h (Int64.toInt_inj.mp heq)
  have hlow := e.le_toInt
  have hhigh := e.toInt_lt
  unfold toward
  split
  · next hlt =>
      have hlt : e.toInt < c.toInt := Int64.lt_iff_toInt_lt.mp hlt
      rw [Int.sign_eq_neg_one_of_neg (by omega), toInt_sub_one (by omega)]
      omega
  · next hle =>
      have hle : c.toInt ≤ e.toInt := Int64.le_iff_toInt_le.mp (Int64.not_lt.mp hle)
      rw [Int.sign_eq_one_of_pos (by omega), toInt_add_one (by omega)]

def distance (e c : Int64) : Nat := (e.toInt - c.toInt).natAbs

theorem distance_eq_zero_iff : distance e c = 0 ↔ c = e := by
  rw [distance, Int.natAbs_eq_zero, ← Int64.toInt_inj]
  omega

theorem distance_toward (h : c ≠ e) : distance e (toward e c) + 1 = distance e c := by
  have hne : c.toInt ≠ e.toInt := fun heq => h (Int64.toInt_inj.mp heq)
  rw [distance, distance, toInt_toward h]
  rcases Int.lt_or_lt_of_ne hne with hlt | hlt
  · rw [Int.sign_eq_one_of_pos (by omega)]
    omega
  · rw [Int.sign_eq_neg_one_of_neg (by omega)]
    omega

theorem distance_lt (e c : Int64) : distance e c < 2 ^ 64 := by
  have helow := e.le_toInt
  have hehigh := e.toInt_lt
  have hclow := c.le_toInt
  have hchigh := c.toInt_lt
  rw [distance]
  omega

/-! ### Part of the way -/

theorem toInt_limit (e c : Int64) :
    e.toInt = c.toInt + distance e c * (e.toInt - c.toInt).sign := by
  have htotal := Int.sign_mul_natAbs (e.toInt - c.toInt)
  rw [distance, Int.mul_comm, htotal]
  omega

variable {c' : Int64} {n : Nat}

/-- After fewer steps than the distance the limit still lies in the same direction. -/
theorem sign_on_the_way (hc' : c'.toInt = c.toInt + n * (e.toInt - c.toInt).sign)
    (hn : n < distance e c) : (e.toInt - c'.toInt).sign = (e.toInt - c.toInt).sign := by
  have hleft : e.toInt - c'.toInt = (distance e c - n : Int) * (e.toInt - c.toInt).sign := by
    have hlimit := toInt_limit e c
    rw [Int.sub_mul]
    omega
  rw [hleft, Int.sign_mul, Int.sign_eq_one_of_pos (by omega), Int.sign_sign, Int.one_mul]

theorem ne_limit_on_the_way (hc' : c'.toInt = c.toInt + n * (e.toInt - c.toInt).sign)
    (hn : n < distance e c) : c' ≠ e := by
  have hsign := sign_on_the_way hc' hn
  rintro rfl
  rw [Int.sub_self, Int.sign_zero] at hsign
  have hsame := Int.sign_eq_zero_iff_zero.mp hsign.symm
  rw [distance, hsame] at hn
  exact absurd hn (Nat.not_lt_zero n)

theorem eq_limit_at_the_end
    (hc' : c'.toInt = c.toInt + distance e c * (e.toInt - c.toInt).sign) : c' = e := by
  rw [← toInt_limit] at hc'
  exact Int64.toInt_inj.mp hc'

/-! ### Calls -/

namespace State

def repeated (st : State) (arg : Bytes) (n : Nat) : State :=
  st.execAll (List.replicate n ⟨Opcode.repeatStep.name, arg⟩)

variable {st : State} {arg : Bytes} {t : Int64} {rest : List Value}

theorem repeated_succ (st : State) (arg : Bytes) (n : Nat) :
    st.repeated arg (n + 1) = (st.repeated arg n).exec ⟨Opcode.repeatStep.name, arg⟩ := by
  rw [repeated, List.replicate_succ', execAll_append]
  rfl

theorem call_repeated {st' : State} {n : Nat}
    (h : Opcode.repeatStep.Step arg (st.repeated arg n) (.done st')) :
    Registry.builtin.call Opcode.repeatStep.name arg (st.repeated arg n) = .done st' ∧
      st.repeated arg (n + 1) = st' := by
  have hcall := Registry.builtin_call_of_done (Opcode.apply_of_step h)
  rw [repeated_succ, exec, hcall]
  exact ⟨rfl, rfl⟩

/-- The counter on its way: `n` steps from where it began, and nothing else has changed but
the pointer. -/
theorem repeated_of_le (hstack : st.stack = .integer c :: .integer e :: rest)
    (harg : IsCount arg t) (hn : n ≤ distance e c) :
    ∃ c', c'.toInt = c.toInt + n * (e.toInt - c.toInt).sign ∧
      st.repeated arg n =
        { st with
          pointer := if n = 0 then st.pointer else t
          stack := .integer c' :: .integer e :: rest } := by
  induction n with
  | zero =>
      refine ⟨c, by simp, ?_⟩
      rw [← hstack]
      rfl
  | succ n ih =>
      obtain ⟨c', hc', hrepeated⟩ := ih (Nat.le_of_succ_le hn)
      have hne : c' ≠ e := ne_limit_on_the_way hc' hn
      have hstep : Opcode.repeatStep.Step arg (st.repeated arg n) _ :=
        .repeatBack harg (by rw [hrepeated]) hne
      refine ⟨toward e c', ?_, ?_⟩
      · rw [toInt_toward hne, sign_on_the_way hc' hn, hc', Int.natCast_succ, Int.add_mul,
          Int.one_mul, Int.add_assoc]
      · rw [(call_repeated hstep).2, hrepeated]
        rfl

theorem call_repeated_of_lt (hstack : st.stack = .integer c :: .integer e :: rest)
    (harg : IsCount arg t) (hn : n < distance e c) :
    Registry.builtin.call Opcode.repeatStep.name arg (st.repeated arg n) =
      .done (st.repeated arg (n + 1)) := by
  obtain ⟨c', hc', hrepeated⟩ := repeated_of_le hstack harg (Nat.le_of_lt hn)
  have hstep : Opcode.repeatStep.Step arg (st.repeated arg n) _ :=
    .repeatBack harg (by rw [hrepeated]) (ne_limit_on_the_way hc' hn)
  rw [(call_repeated hstep).2]
  exact (call_repeated hstep).1

/-- The call that leaves. -/
theorem call_repeated_distance (hstack : st.stack = .integer c :: .integer e :: rest)
    (harg : IsCount arg t) :
    Registry.builtin.call Opcode.repeatStep.name arg (st.repeated arg (distance e c)) =
        .done (st.repeated arg (distance e c + 1)) ∧
      st.repeated arg (distance e c + 1) =
        { st with pointer := (st.repeated arg (distance e c)).pointer + 1, stack := rest } := by
  obtain ⟨c', hc', hrepeated⟩ := repeated_of_le hstack harg (Nat.le_refl _)
  obtain rfl := eq_limit_at_the_end hc'
  have hstep : Opcode.repeatStep.Step arg (st.repeated arg (distance c' c)) _ :=
    .repeatLeave harg (by rw [hrepeated])
  obtain ⟨hcall, hnext⟩ := call_repeated hstep
  rw [hnext]
  refine ⟨hcall, ?_⟩
  rw [hrepeated]
  rfl

/-- The counter instruction, called again and again on any two integers, succeeds every
time. It goes to its target with the counter one step nearer, without wrapping, as often as
the distance says, and then takes both off and goes on. -/
theorem repeatStep_finishes (st : State) (arg : Bytes) (t e c : Int64) (rest : List Value)
    (hstack : st.stack = .integer c :: .integer e :: rest) (hread : Numeral.read arg = .ok t)
    (ht : 0 ≤ t) :
    distance e c < 2 ^ 64 ∧
    (∀ n ≤ distance e c,
      Registry.builtin.call Opcode.repeatStep.name arg (st.repeated arg n) =
        .done (st.repeated arg (n + 1))) ∧
    (∀ n, 1 ≤ n → n ≤ distance e c →
      ∃ c', c'.toInt = c.toInt + n * (e.toInt - c.toInt).sign ∧
        st.repeated arg n =
          { st with pointer := t, stack := .integer c' :: .integer e :: rest }) ∧
    st.repeated arg (distance e c + 1) =
      { st with pointer := (st.repeated arg (distance e c)).pointer + 1, stack := rest } := by
  have harg : IsCount arg t := ⟨hread, ht⟩
  obtain ⟨hlast, hleaves⟩ := call_repeated_distance hstack harg
  refine ⟨distance_lt e c, ?_, ?_, hleaves⟩
  · intro n hn
    rcases Nat.lt_or_eq_of_le hn with hlt | rfl
    · exact call_repeated_of_lt hstack harg hlt
    · exact hlast
  · intro n hpos hn
    obtain ⟨c', hc', hrepeated⟩ := repeated_of_le hstack harg hn
    rw [if_neg (Nat.ne_of_gt hpos)] at hrepeated
    exact ⟨c', hc', hrepeated⟩

/-- Over the whole range of words, downward. -/
theorem repeatStep_finishes_whole_range :
    let st : State :=
      { stack := [.integer Int64.maxValue, .integer Int64.minValue, .text "a"], pointer := 9 }
    distance Int64.minValue Int64.maxValue = 2 ^ 64 - 1 ∧
      (∃ c', c'.toInt = Int64.maxValue.toInt - 3 ∧
        st.repeated " 4 " 3 =
          { st with
            pointer := 4
            stack := [.integer c', .integer Int64.minValue, .text "a"] }) ∧
      (st.repeated " 4 " (2 ^ 64)).stack = [.text "a"] := by
  intro st
  have hdistance : distance Int64.minValue Int64.maxValue = 2 ^ 64 - 1 := by decide
  have hread : Numeral.read " 4 " = .ok 4 := by rfl
  obtain ⟨-, -, hback, hleaves⟩ :=
    repeatStep_finishes st " 4 " 4 Int64.minValue Int64.maxValue [.text "a"] rfl hread (by decide)
  rw [hdistance] at hback hleaves
  refine ⟨hdistance, ?_, ?_⟩
  · exact hback 3 (by decide) (by decide)
  · rw [show 2 ^ 64 = 2 ^ 64 - 1 + 1 from rfl, hleaves]

end State

end StackStep
