import Mathlib.Data.Int.ModEq
import StackStep.Proofs.Machine.Step

/-!
Arithmetic on words, against arithmetic on integers.

The machine computes in words of 64 bits, and what an instruction means is said in
integers without a bound. A sum, a difference or a product may be too large for a
word, and then the word that is congruent to it is left. A quotient is too large for
a single pair of operands. A comparison looks at the operands themselves and not at
their difference, so it is right also where the difference is not.

The top value is the one that is subtracted from, divided and compared.
-/

namespace StackStep

/-- `w` is the one word that is congruent to `x`, and is `x` itself where that is a word. -/
structure IsWrapped (x : Int) (w : Int64) : Prop where
  congruent : w.toInt ≡ x [ZMOD 2 ^ 64]
  unique : ∀ v : Int64, v.toInt ≡ x [ZMOD 2 ^ 64] → v = w
  eq_of_fits : -2 ^ 63 ≤ x → x < 2 ^ 63 → w.toInt = x

variable {x : Int} {t n v w : Int64}

theorem eq_of_congruent (h : v.toInt ≡ w.toInt [ZMOD 2 ^ 64]) : v = w := by
  have hvlow := v.le_toInt
  have hvhigh := v.toInt_lt
  have hwlow := w.le_toInt
  have hwhigh := w.toInt_lt
  unfold Int.ModEq at h
  exact Int64.toInt_inj.mp (by omega)

theorem isWrapped_of_toInt (h : w.toInt = x.bmod (2 ^ 64)) : IsWrapped x w := by
  have hcongruent : w.toInt ≡ x [ZMOD 2 ^ 64] := by
    rw [h]
    exact Int.bmod_emod
  refine ⟨hcongruent, ?_, ?_⟩
  · intro v hv
    exact eq_of_congruent (hv.trans hcongruent.symm)
  · intro hlow hhigh
    rw [h]
    exact Int.bmod_eq_of_le_mul_two (by omega) (by omega)

/-- Division toward zero: what is left over is smaller than the divisor and is on the side of
zero where the dividend is. -/
def IsQuotient (t n q : Int) : Prop :=
  ∃ r, t = q * n + r ∧ r.natAbs < n.natAbs ∧ (r = 0 ∨ r.sign = t.sign)

theorem isQuotient_tdiv (t : Int) {n : Int} (hn : n ≠ 0) : IsQuotient t n (t.tdiv n) := by
  refine ⟨t.tmod n, (Int.tdiv_mul_add_tmod t n).symm, ?_, ?_⟩
  · rw [Int.natAbs_tmod]
    exact Nat.mod_lt _ (Int.natAbs_pos.mpr hn)
  · have hsign := Int.sign_tmod t n
    split at hsign
    · exact .inl (Int.sign_eq_zero_iff_zero.mp hsign)
    · exact .inr hsign

theorem isQuotient_div (hn : n ≠ 0) (h : ¬(t = Int64.minValue ∧ n = -1)) :
    IsQuotient t.toInt n.toInt (t / n).toInt := by
  have hdiv : (t / n).toInt = t.toInt.tdiv n.toInt := by
    by_cases ht : t = Int64.minValue
    · exact Int64.toInt_div_of_ne_right t n fun hone => h ⟨ht, hone⟩
    · exact Int64.toInt_div_of_ne_left t n ht
  rw [hdiv]
  refine isQuotient_tdiv _ ?_
  intro hzero
  exact hn (Int64.toInt_inj.mp hzero)

theorem lt_iff_sub_neg : t < n ↔ t.toInt - n.toInt < 0 := by
  rw [Int64.lt_iff_toInt_lt]
  omega

namespace Opcode

/-- A call takes the two top values, leaves `v` above the `rest` and goes on to the next
place. -/
def Leaves (op : Opcode) (arg : Bytes) (st : State) (v : Value) (rest : List Value) : Prop :=
  Registry.builtin.call op.name arg st =
    .done { st with stack := v :: rest, pointer := st.pointer + 1 }

variable {op : Opcode} {st : State} {rest : List Value}

theorem leaves_of_onIntegers {f : Int64 → Int64 → Except Fault Value} {v : Value} (arg : Bytes)
    (hop : op.operation? = some (onIntegers f))
    (hstack : st.stack = .integer t :: .integer n :: rest) (hv : f t n = .ok v) :
    op.Leaves arg st v rest :=
  Registry.builtin_call_of_done (apply_of_step (.operate hop hstack hv))

/-- Two integers on the stack, whatever they are. Sums, differences and products wrap. The
quotient is the one toward zero, but for the one pair of operands whose quotient is no word.
A comparison goes by the difference that does not wrap. -/
theorem arithmetic_on_integers (st : State) (arg : Bytes) (t n : Int64) (rest : List Value)
    (hstack : st.stack = .integer t :: .integer n :: rest) :
    (∃ w, add.Leaves arg st (.integer w) rest ∧ IsWrapped (n.toInt + t.toInt) w) ∧
    (∃ w, sub.Leaves arg st (.integer w) rest ∧ IsWrapped (t.toInt - n.toInt) w) ∧
    (∃ w, mul.Leaves arg st (.integer w) rest ∧ IsWrapped (t.toInt * n.toInt) w) ∧
    (n ≠ 0 → ∃ q, div.Leaves arg st (.integer q) rest ∧
      (¬(t.toInt = -2 ^ 63 ∧ n.toInt = -1) → IsQuotient t.toInt n.toInt q.toInt) ∧
      (t.toInt = -2 ^ 63 ∧ n.toInt = -1 → q.toInt = -2 ^ 63)) ∧
    smaller.Leaves arg st (.integer (if t.toInt - n.toInt < 0 then 1 else 0)) rest ∧
    notSmaller.Leaves arg st (.integer (if t.toInt - n.toInt < 0 then 0 else 1)) rest := by
  have hmin : t.toInt = -2 ^ 63 ↔ t = Int64.minValue := by
    rw [← Int64.toInt_inj, Int64.toInt_minValue]
  have hone : n.toInt = -1 ↔ n = -1 := by
    rw [← Int64.toInt_inj]
    rfl
  rw [hmin, hone]
  refine ⟨⟨n + t, ?_, isWrapped_of_toInt (Int64.toInt_add n t)⟩,
    ⟨t - n, ?_, isWrapped_of_toInt (Int64.toInt_sub t n)⟩,
    ⟨t * n, ?_, isWrapped_of_toInt (Int64.toInt_mul t n)⟩, ?_, ?_, ?_⟩
  · exact leaves_of_onIntegers arg rfl hstack rfl
  · exact leaves_of_onIntegers arg rfl hstack rfl
  · exact leaves_of_onIntegers arg rfl hstack rfl
  · intro hn
    refine ⟨t / n, leaves_of_onIntegers arg rfl hstack (if_neg hn), isQuotient_div hn, ?_⟩
    rintro ⟨rfl, rfl⟩
    rw [Int64.minValue_div_neg_one, Int64.toInt_minValue]
  · refine leaves_of_onIntegers arg rfl hstack ?_
    simp only [Value.ofBool, lt_iff_sub_neg, decide_eq_true_eq]
  · refine leaves_of_onIntegers arg rfl hstack ?_
    simp only [Value.ofBool, ← Int64.not_lt, lt_iff_sub_neg, decide_eq_true_eq, ite_not]

/-- The quotient that is no word, a quotient toward zero from below, and a difference that
wraps to the other sign under a comparison that does not. -/
theorem arithmetic_on_integers_at_limits :
    let least : State := { stack := [.integer Int64.minValue, .integer (-1), .text "a"] }
    let halved : State := { stack := [.integer (-7), .integer 2] }
    let apart : State := { stack := [.integer Int64.minValue, .integer 1] }
    (∃ q : Int64, div.Leaves [] least (.integer q) [.text "a"] ∧ q.toInt = -2 ^ 63) ∧
      (∃ q : Int64, div.Leaves [] halved (.integer q) [] ∧ IsQuotient (-7) 2 q.toInt) ∧
      sub.Leaves [] apart (.integer Int64.maxValue) [] ∧
      smaller.Leaves [] apart (.integer 1) [] := by
  intro least halved apart
  obtain ⟨-, -, -, hleast, -⟩ :=
    arithmetic_on_integers least [] Int64.minValue (-1) [.text "a"] rfl
  obtain ⟨q, hq, -, hoverflow⟩ := hleast (by decide)
  obtain ⟨-, -, -, hhalved, -⟩ := arithmetic_on_integers halved [] (-7) 2 [] rfl
  obtain ⟨p, hp, htoward, -⟩ := hhalved (by decide)
  obtain ⟨-, ⟨w, hw, hwrapped⟩, -, -, hsmaller, -⟩ :=
    arithmetic_on_integers apart [] Int64.minValue 1 [] rfl
  have hmax : Int64.maxValue = w := hwrapped.unique Int64.maxValue (by decide)
  rw [hmax]
  exact ⟨⟨q, hq, hoverflow (by decide)⟩, ⟨p, hp, htoward (by decide)⟩, hw, hsmaller⟩

end Opcode

end StackStep
