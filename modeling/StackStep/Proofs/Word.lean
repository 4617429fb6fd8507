import Mathlib.Algebra.Group.Int.Defs
import Mathlib.Algebra.Group.Nat.Defs

/-!
Words of 64 bits that are counted up or down by one, as integers. They wrap at the
two ends of their range and nowhere else.
-/

namespace StackStep

theorem toInt_add_one {n : Int64} (h : n.toInt + 1 < 2 ^ 63) : (n + 1).toInt = n.toInt + 1 := by
  have hle := n.le_toInt
  have hone : (1 : Int64).toInt = 1 := rfl
  rw [Int64.toInt_add, hone]
  exact Int.bmod_eq_of_le_mul_two (by omega) (by omega)

theorem toInt_sub_one {n : Int64} (h : -2 ^ 63 ≤ n.toInt - 1) : (n - 1).toInt = n.toInt - 1 := by
  have hlt := n.toInt_lt
  have hone : (1 : Int64).toInt = 1 := rfl
  rw [Int64.toInt_sub, hone]
  exact Int.bmod_eq_of_le_mul_two (by omega) (by omega)

/-- Only the largest word has a negative one behind it. -/
theorem nonneg_add_one_iff {n : Int64} (h : 0 ≤ n) : 0 ≤ n + 1 ↔ n ≠ Int64.maxValue := by
  constructor
  · rintro hnext rfl
    exact absurd hnext (by decide)
  · intro hne
    have hnonneg : 0 ≤ n.toInt := Int64.le_iff_toInt_le.mp h
    have hlt := n.toInt_lt
    have hmax : n.toInt ≠ 2 ^ 63 - 1 := by
      rw [← Int64.toInt_maxValue]
      exact fun heq => hne (Int64.toInt_inj.mp heq)
    have hnext : (n + 1).toInt = n.toInt + 1 := toInt_add_one (by omega)
    rw [Int64.le_iff_toInt_le, hnext]
    change 0 ≤ n.toInt + 1
    omega

end StackStep
