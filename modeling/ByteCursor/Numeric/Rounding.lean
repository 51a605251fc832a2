import ByteCursor.Bytes

set_option autoImplicit false

namespace ByteCursor

def roundDiv (num den : Nat) : Nat :=
  let quotient := num / den
  let twice := 2 * (num % den)
  if twice < den then quotient
  else if den < twice then quotient + 1
  else quotient + quotient % 2

theorem roundDiv_lower (num den : Nat) (positive : 0 < den) :
    2 * num ≤ 2 * (den * roundDiv num den) + den := by
  have parts := Nat.div_add_mod num den
  have small := Nat.mod_lt num positive
  have even := Nat.mod_two_eq_zero_or_one (num / den)
  unfold roundDiv
  dsimp only
  split
  · omega
  · split
    · rw [Nat.mul_add]
      omega
    · rcases even with zero | one <;> simp only [*, Nat.mul_add] <;> omega

theorem roundDiv_upper (num den : Nat) (positive : 0 < den) :
    2 * (den * roundDiv num den) ≤ 2 * num + den := by
  have parts := Nat.div_add_mod num den
  have small := Nat.mod_lt num positive
  have even := Nat.mod_two_eq_zero_or_one (num / den)
  unfold roundDiv
  dsimp only
  split
  · omega
  · split
    · rw [Nat.mul_add]
      omega
    · rcases even with zero | one <;> simp only [*, Nat.mul_add] <;> omega

theorem roundDiv_even (num den : Nat) (tie : 2 * (num % den) = den) :
    roundDiv num den % 2 = 0 := by
  unfold roundDiv
  dsimp only
  split
  · omega
  · split <;> omega

end ByteCursor
