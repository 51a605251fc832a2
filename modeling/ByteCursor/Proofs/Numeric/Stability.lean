import ByteCursor.Proofs.Numeric.RoundTrip

set_option autoImplicit false

/-!
# Writing again what was read

A number with at most fifteen digits is read as a double so near to it that writing the double
gives the same digits. That holds right below a power of ten too, where the last digit counts for
a tenth, since a double is nearer than half of that. With sixteen digits it is not.
-/

namespace ByteCursor

namespace Significant

variable {m : Magnitude}

structure Canonical (s : Significant) : Prop where
  precision : 0 < s.precision
  lower : 10 ^ (s.precision - 1) ≤ s.coefficient
  upper : s.coefficient < 10 ^ s.precision

theorem value_pos {s : Significant} (canonical : s.Canonical) : 0 < s.value := by
  have positive : 0 < s.coefficient :=
    Nat.lt_of_lt_of_le (Nat.pow_pos (by decide)) canonical.lower
  have cast : (0 : ℚ) < s.coefficient := by exact_mod_cast positive
  exact mul_pos cast (zpow_pos (by norm_num) _)

theorem lt_ten_pow_firstPlace (m : Magnitude) :
    m.units * 10 ^ lastPlace < unitsPerOne * 10 ^ (firstPlace m + 1) := by
  have count := digitCount_pos (m.units * 10 ^ lastPlace / unitsPerOne)
  have upper := lt_ten_pow_digitCount_div (n := m.units * 10 ^ lastPlace) unitsPerOne_pos
  rwa [firstPlace, Nat.sub_add_cancel count]

theorem scaled_lt (precision : Nat) (m : Magnitude) :
    m.units * 10 ^ (lastPlace + precision) <
      unitsPerOne * 10 ^ (firstPlace m + 1) * 10 ^ precision := by
  rw [Nat.pow_add, ← Nat.mul_assoc]
  exact Nat.mul_lt_mul_of_pos_right (lt_ten_pow_firstPlace m) (Nat.pow_pos (by decide))

theorem le_scaled {precision : Nat} (some : 0 < precision) (nonzero : m ≠ .zero) :
    unitsPerOne * 10 ^ (firstPlace m + 1) * 10 ^ (precision - 1) ≤
      m.units * 10 ^ (lastPlace + precision) := by
  have power : 10 ^ precision = 10 ^ (precision - 1) * 10 := (Nat.pow_pred_mul some).symm
  calc unitsPerOne * 10 ^ (firstPlace m + 1) * 10 ^ (precision - 1)
      = unitsPerOne * 10 ^ firstPlace m * 10 ^ precision := by
        rw [power, Nat.pow_succ, Nat.mul_assoc, Nat.mul_assoc, Nat.mul_assoc, Nat.mul_comm 10]
    _ ≤ m.units * 10 ^ lastPlace * 10 ^ precision :=
        Nat.mul_le_mul_right _ (ten_pow_firstPlace nonzero)
    _ = m.units * 10 ^ (lastPlace + precision) := by rw [Nat.pow_add, Nat.mul_assoc]

theorem lastUnit_pos (m : Magnitude) : 0 < unitsPerOne * 10 ^ (firstPlace m + 1) :=
  Nat.mul_pos unitsPerOne_pos (Nat.pow_pos (by decide))

theorem rounded_le (precision : Nat) (m : Magnitude) : rounded precision m ≤ 10 ^ precision :=
  roundDiv_le (lastUnit_pos m) (scaled_lt precision m).le

theorem le_rounded {precision : Nat} (some : 0 < precision) (nonzero : m ≠ .zero) :
    10 ^ (precision - 1) ≤ rounded precision m :=
  le_roundDiv (lastUnit_pos m) (le_scaled some nonzero)

theorem ofMagnitude_canonical {precision : Nat} (some : 0 < precision) (nonzero : m ≠ .zero) :
    (ofMagnitude precision m).Canonical := by
  have lower := le_rounded some nonzero
  have upper := rounded_le precision m
  unfold ofMagnitude
  generalize rounded precision m = rounded at lower upper
  by_cases carry : rounded = 10 ^ precision
  · have less : 10 ^ (precision - 1) < 10 ^ precision :=
      Nat.pow_lt_pow_right (by decide) (Nat.sub_lt some one_pos)
    rw [if_pos carry]
    exact ⟨some, Nat.le_refl _, less⟩
  · rw [if_neg carry]
    exact ⟨some, lower, Nat.lt_of_le_of_ne upper carry⟩

def inLastUnits (precision : Nat) (m : Magnitude) : ℚ :=
  (m.units * 10 ^ (lastPlace + precision) : ℕ) / (unitsPerOne * 10 ^ (firstPlace m + 1) : ℕ)

theorem lastUnit_cast_pos (m : Magnitude) :
    (0 : ℚ) < (unitsPerOne * 10 ^ (firstPlace m + 1) : ℕ) := by
  exact_mod_cast lastUnit_pos m

theorem inLastUnits_lt (precision : Nat) (m : Magnitude) :
    inLastUnits precision m < 10 ^ precision := by
  rw [inLastUnits, div_lt_iff₀' (lastUnit_cast_pos m)]
  exact_mod_cast scaled_lt precision m

theorem le_inLastUnits {precision : Nat} (some : 0 < precision) (nonzero : m ≠ .zero) :
    10 ^ (precision - 1) ≤ inLastUnits precision m := by
  rw [inLastUnits, le_div_iff₀' (lastUnit_cast_pos m)]
  exact_mod_cast le_scaled some nonzero

theorem rounded_of_near {precision c : Nat} (near : 2 * |inLastUnits precision m - c| < 1) :
    rounded precision m = c := by
  have unit := lastUnit_cast_pos m
  apply roundDiv_of_near
  have scaled : ((unitsPerOne * 10 ^ (firstPlace m + 1) : ℕ) : ℚ) * c -
      (m.units * 10 ^ (lastPlace + precision) : ℕ) =
      (unitsPerOne * 10 ^ (firstPlace m + 1) : ℕ) * (c - inLastUnits precision m) := by
    rw [mul_sub, inLastUnits, mul_div_cancel₀ _ unit.ne']
  rw [scaled, abs_mul, abs_of_pos unit, abs_sub_comm, mul_left_comm]
  exact mul_lt_of_lt_one_right unit near

theorem value_scaled (s : Significant) (place : Nat) :
    s.value * 10 ^ (lastPlace + s.precision) =
      s.coefficient * 10 ^ (s.exponent + lastPlace - place) * 10 ^ (place + 1) := by
  have power : s.exponent + 1 - s.precision + (lastPlace + s.precision : ℕ) =
      s.exponent + lastPlace - place + (place + 1 : ℕ) := by
    push_cast
    ring
  rw [value, mul_assoc, mul_assoc, ← zpow_natCast, ← zpow_natCast, ← zpow_add₀ (by norm_num),
    ← zpow_add₀ (by norm_num), power]

theorem close_scaled {a b bound scale : ℚ} (positive : 0 < scale) (close : |a - b| * bound ≤ a) :
    |a * scale - b * scale| * bound ≤ a * scale := by
  rw [← sub_mul, abs_mul, abs_of_pos positive, mul_right_comm]
  exact mul_le_mul_of_nonneg_right close positive.le

theorem close_inLastUnits {s : Significant}
    (close : |m.units - s.value * unitsPerOne| * 2 ^ 53 ≤ m.units) :
    |inLastUnits s.precision m - s.coefficient * 10 ^ (s.exponent + lastPlace - firstPlace m)| *
      2 ^ 53 ≤ inLastUnits s.precision m := by
  have unit : (0 : ℚ) < unitsPerOne * 10 ^ (firstPlace m + 1) := by exact_mod_cast lastUnit_pos m
  have scale : (0 : ℚ) < 10 ^ (lastPlace + s.precision) / (unitsPerOne * 10 ^ (firstPlace m + 1)) :=
    div_pos (by positivity) unit
  have number : m.units * (10 ^ (lastPlace + s.precision) /
      (unitsPerOne * 10 ^ (firstPlace m + 1))) = inLastUnits s.precision m := by
    rw [inLastUnits, ← mul_div_assoc]
    push_cast
    rfl
  have decimal : s.value * unitsPerOne * (10 ^ (lastPlace + s.precision) /
      (unitsPerOne * 10 ^ (firstPlace m + 1))) =
      s.coefficient * 10 ^ (s.exponent + lastPlace - firstPlace m) := by
    rw [← mul_div_assoc, mul_right_comm, value_scaled s (firstPlace m), div_eq_iff unit.ne']
    ring
  have scaled := close_scaled scale close
  rwa [number, decimal] at scaled

theorem shift_of_close {a : ℚ} {c precision : ℕ} {k : ℤ} (some : 0 < precision)
    (few : 10 ^ precision ≤ 2 ^ 52) (lower : 10 ^ (precision - 1) ≤ a)
    (upper : a < 10 ^ precision) (least : 10 ^ (precision - 1) ≤ c) (most : c < 10 ^ precision)
    (close : |a - c * 10 ^ k| * 2 ^ 53 ≤ a) :
    (k = 0 ∧ 2 * |a - c| < 1) ∨ (k = 1 ∧ 2 * |a - 10 * c| < 1) := by
  obtain ⟨first, rfl⟩ := Nat.exists_eq_succ_of_ne_zero some.ne'
  simp only [Nat.succ_eq_add_one, Nat.add_sub_cancel, pow_succ (10 : ℚ)] at *
  have fewer : (10 : ℚ) ^ first * 10 ≤ 2 ^ 52 := by exact_mod_cast few
  have larger : (10 : ℚ) ^ first ≤ c := by exact_mod_cast least
  have smaller : (c : ℚ) + 1 ≤ 10 ^ first * 10 := by exact_mod_cast most
  have one : (1 : ℚ) ≤ 10 ^ first := one_le_pow₀ (by norm_num)
  generalize (10 : ℚ) ^ first = ten at *
  have above := le_abs_self (a - c * 10 ^ k)
  have below := neg_abs_le (a - c * 10 ^ k)
  have cases : k ≤ -1 ∨ k = 0 ∨ k = 1 ∨ 2 ≤ k := by omega
  rcases cases with less | rfl | rfl | more
  · -- The decimal ends a tenth of a unit below the number at least.
    have small : (10 : ℚ) ^ k ≤ 10 ^ (-1 : ℤ) := zpow_le_zpow_right₀ (by norm_num) less
    have tenth := mul_le_mul_of_nonneg_left small (Nat.cast_nonneg (α := ℚ) c)
    rw [zpow_neg_one] at tenth
    linarith
  · left
    rw [zpow_zero, mul_one] at close
    exact ⟨rfl, by linarith⟩
  · -- The decimal is a power of ten, and the number right below it.
    right
    rw [zpow_one, mul_comm (c : ℚ)] at close
    exact ⟨rfl, by linarith⟩
  · have large : (10 : ℚ) ^ (2 : ℤ) ≤ 10 ^ k := zpow_le_zpow_right₀ (by norm_num) more
    have hundred := mul_le_mul_of_nonneg_left large (Nat.cast_nonneg (α := ℚ) c)
    norm_num at hundred
    linarith

theorem ofMagnitude_of_close {s : Significant} (canonical : s.Canonical)
    (few : 10 ^ s.precision ≤ 2 ^ 52) (nonzero : m ≠ .zero)
    (close : |m.units - s.value * unitsPerOne| * 2 ^ 53 ≤ m.units) :
    ofMagnitude s.precision m = s := by
  have scaled := close_inLastUnits close
  have most := rounded_le s.precision m
  rcases shift_of_close canonical.precision few (le_inLastUnits canonical.precision nonzero)
    (inLastUnits_lt s.precision m) canonical.lower canonical.upper scaled with
    ⟨shift, near⟩ | ⟨shift, near⟩
  · have same := rounded_of_near near
    have exponent : (firstPlace m : ℤ) - lastPlace = s.exponent := by omega
    rw [ofMagnitude, same, if_neg canonical.upper.ne, exponent]
  · -- The number is below a power of ten, and rounding carries it there.
    have same : rounded s.precision m = 10 * s.coefficient :=
      rounded_of_near (by exact_mod_cast near)
    have exponent : (firstPlace m : ℤ) + 1 - lastPlace = s.exponent := by omega
    have power : 10 ^ s.precision = 10 ^ (s.precision - 1) * 10 :=
      (Nat.pow_pred_mul canonical.precision).symm
    have lower := canonical.lower
    have first : s.coefficient = 10 ^ (s.precision - 1) := by omega
    rw [ofMagnitude, if_pos (by omega), exponent, ← first]

end Significant

theorem writeSignificant_read {wanted : Nat} (few : clampDigits wanted ≤ 15) {negative : Bool}
    {m : Magnitude} {y : Binary64}
    (read : readNumber (writeSignificant wanted (.finite negative m)) = .ok y) :
    writeSignificant wanted y = writeSignificant wanted (.finite negative m) := by
  by_cases zero : m = .zero
  · subst zero
    cases negative <;> cases read <;> rfl
  · let s := Significant.ofMagnitude (clampDigits wanted) m
    have some : 0 < clampDigits wanted := Nat.le_max_left _ _
    have canonical : s.Canonical := Significant.ofMagnitude_canonical some zero
    have precision : s.precision = clampDigits wanted := Significant.precision_ofMagnitude _ m
    have same : Significant.written wanted negative m = s.decimalText negative := if_neg zero
    have formed := Significant.written_wellFormed wanted negative m
    have magnitude := Significant.magnitude_decimalText negative canonical.precision
    have positive := Significant.value_pos canonical
    rw [← Significant.text_written] at read ⊢
    rw [same] at read formed ⊢
    rw [← magnitude] at positive
    obtain ⟨n, rfl, normal, nearest⟩ :=
      readNumber_normal formed (DecimalText.dropWhile_text formed) positive read
    have close := nearest.dist_normal (mul_pos positive Binary64.unit_pos).le normal
    rw [magnitude, ← units_eq] at close
    have nonzero : n ≠ .zero := by
      rintro rfl
      exact absurd normal (by decide)
    have power : 10 ^ s.precision ≤ 2 ^ 52 := by
      rw [precision]
      exact (Nat.pow_le_pow_right (by decide) few).trans (by decide)
    have again := Significant.ofMagnitude_of_close canonical power nonzero close
    rw [precision] at again
    rw [Significant.decimalText_negative, ← Significant.text_written, Significant.written,
      if_neg nonzero, again]

/-- With any number of digits but sixteen, what is read from a written number is written in the same
way. -/
theorem writeSignificant_stable {wanted : Nat} (other : clampDigits wanted ≠ 16) {x y : Binary64}
    (read : readNumber (writeSignificant wanted x) = .ok y) :
    writeSignificant wanted y = writeSignificant wanted x := by
  cases x with
  | nan =>
      cases read
      rfl
  | infinite negative => cases negative <;> cases read <;> rfl
  | finite negative m =>
      by_cases enough : 17 ≤ wanted
      · rw [readNumber_written enough] at read
        split at read
        · cases read
        · cases read
          rfl
      · apply writeSignificant_read _ read
        unfold clampDigits maxSignificantDigits at *
        omega

-- The double next above `10 ^ 23` is read as the one next below it.
def above1e23 : Binary64 := .finite false ⟨0x44B52D02C7E14AF7, by decide⟩

def below1e23 : Binary64 := .finite false ⟨0x44B52D02C7E14AF6, by decide⟩

theorem writeSignificant_stable_1e23 :
    clampDigits 15 ≠ 16 ∧ readNumber (writeSignificant 15 above1e23) = .ok below1e23 ∧
      writeSignificant 15 below1e23 = utf8 "1e+23" := by
  have sixteen : clampDigits 15 ≠ 16 := by decide
  have read : readNumber (writeSignificant 15 above1e23) = .ok below1e23 := by decide +kernel
  refine ⟨sixteen, read, ?_⟩
  rw [writeSignificant_stable sixteen read]
  decide +kernel

theorem sixteen_digits_unstable :
    ∃ x y, readNumber (writeSignificant 16 x) = .ok y ∧
      writeSignificant 16 y ≠ writeSignificant 16 x :=
  ⟨above1e23, below1e23, by decide +kernel⟩

end ByteCursor
