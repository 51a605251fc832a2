import ByteCursor.Numeric.Rounding
import Mathlib.Data.Nat.Basic

set_option autoImplicit false

namespace ByteCursor

theorem roundDiv_eq_of_close {num den c : Nat} (above : 2 * num < 2 * (den * c) + den)
    (below : 2 * (den * c) < 2 * num + den) : roundDiv num den = c := by
  have positive : 0 < den := by omega
  have lower := roundDiv_lower num den positive
  have upper := roundDiv_upper num den positive
  rcases Nat.lt_trichotomy (roundDiv num den) c with less | same | more
  · have step := Nat.mul_le_mul_left den less
    rw [Nat.succ_eq_add_one, Nat.mul_add] at step
    omega
  · exact same
  · have step := Nat.mul_le_mul_left den more
    rw [Nat.succ_eq_add_one, Nat.mul_add] at step
    omega

theorem le_roundDiv {num den c : Nat} (positive : 0 < den) (least : den * c ≤ num) :
    c ≤ roundDiv num den := by
  have lower := roundDiv_lower num den positive
  by_contra less
  have step := Nat.mul_le_mul_left den (Nat.lt_of_not_le less)
  rw [Nat.succ_eq_add_one, Nat.mul_add] at step
  omega

theorem roundDiv_le {num den c : Nat} (positive : 0 < den) (most : num ≤ den * c) :
    roundDiv num den ≤ c := by
  have upper := roundDiv_upper num den positive
  by_contra more
  have step := Nat.mul_le_mul_left den (Nat.lt_of_not_le more)
  rw [Nat.succ_eq_add_one, Nat.mul_add] at step
  omega

theorem roundDiv_mul_right (num den : Nat) {k : Nat} (positive : 0 < k) :
    roundDiv (num * k) (den * k) = roundDiv num den := by
  have below : 2 * (num % den * k) < den * k ↔ 2 * (num % den) < den := by
    rw [← Nat.mul_assoc, Nat.mul_lt_mul_right positive]
  have above : den * k < 2 * (num % den * k) ↔ den < 2 * (num % den) := by
    rw [← Nat.mul_assoc, Nat.mul_lt_mul_right positive]
  simp only [roundDiv, Nat.mul_div_mul_right _ _ positive, Nat.mul_mod_mul_right, below, above]

theorem roundDiv_of_tenfold {num den c : Nat} (positive : 0 < den)
    (tenfold : roundDiv (num * 10) den = c * 10) : roundDiv num den = c := by
  have lower := roundDiv_lower (num * 10) den positive
  have upper := roundDiv_upper (num * 10) den positive
  have scaled : den * (c * 10) = den * c * 10 := (Nat.mul_assoc den c 10).symm
  rw [tenfold, scaled] at lower upper
  apply roundDiv_eq_of_close
  · omega
  · omega

theorem roundDiv_half (num den : Nat) (positive : 0 < den)
    (half : 2 * num = 2 * (den * roundDiv num den) + den ∨
      2 * num + den = 2 * (den * roundDiv num den)) :
    roundDiv num den % 2 = 0 := by
  apply roundDiv_even
  have parts := Nat.div_add_mod num den
  have small := Nat.mod_lt num positive
  -- Without a tie rounding lands nearer than half a step.
  by_contra differ
  unfold roundDiv at half
  dsimp only at half
  split at half
  · omega
  · split at half
    · rw [Nat.mul_add] at half
      omega
    · omega

end ByteCursor
