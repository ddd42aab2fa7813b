import Mathlib.Data.Nat.Bits
import Mathlib.Algebra.Group.Nat.Defs
import Mathlib.Algebra.Group.Int.Defs

namespace Bits

theorem and_high_mask {x n k : Nat} (hx : x < 2 ^ n) (hk : k ≤ n) :
    x &&& (2 ^ (n - k) - 1) * 2 ^ k = x / 2 ^ k * 2 ^ k := by
  apply Nat.eq_of_testBit_eq
  intro i
  rw [Nat.testBit_and, Nat.testBit_mul_two_pow, Nat.testBit_two_pow_sub_one, Nat.testBit_mul_two_pow,
    Nat.testBit_div_two_pow]
  by_cases hi : k ≤ i
  · rw [Nat.sub_add_cancel hi]
    by_cases hin : i < n
    · simp [hi, show i - k < n - k by omega]
    · have hbit : x.testBit i = false :=
        Nat.testBit_lt_two_pow (Nat.lt_of_lt_of_le hx (Nat.pow_le_pow_right (by decide) (by omega)))
      simp [hbit]
  · simp [hi]

theorem and_high_mask_eq_iff {x y n k : Nat} (hx : x < 2 ^ n) (hy : y < 2 ^ n) (hk : k ≤ n) :
    x &&& (2 ^ (n - k) - 1) * 2 ^ k = y &&& (2 ^ (n - k) - 1) * 2 ^ k ↔ x / 2 ^ k = y / 2 ^ k := by
  rw [and_high_mask hx hk, and_high_mask hy hk]
  exact Nat.mul_left_inj (Nat.ne_of_gt (Nat.two_pow_pos k))

end Bits
