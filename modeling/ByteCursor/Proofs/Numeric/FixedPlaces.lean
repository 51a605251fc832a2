import ByteCursor.Numeric.Fixed
import ByteCursor.Proofs.Numeric.Range
import ByteCursor.Proofs.Numeric.Writing

set_option autoImplicit false

/-!
# Thirteen decimal places

Writing rounds to a multiple of `10 ^ (-13)` and reading rounds that to a number again. Up to 512
numbers are closer together than such multiples, so that the second rounding cannot lose the
multiple; from 512 on they are further apart, so that it cannot miss the number.
-/

namespace ByteCursor

namespace Magnitude

variable {m : Magnitude}

theorem scaled_dist (places n units : Nat) :
    |(n : ℚ) / 10 ^ places * unitsPerOne - units| * 10 ^ places =
      |(unitsPerOne : ℚ) * n - (units * 10 ^ places : ℕ)| := by
  have scale : (0 : ℚ) < 10 ^ places := by positivity
  have same : ((n : ℚ) / 10 ^ places * unitsPerOne - units) * 10 ^ places =
      unitsPerOne * n - (units * 10 ^ places : ℕ) := by
    rw [sub_mul, mul_right_comm, div_mul_cancel₀ _ scale.ne', mul_comm (n : ℚ), Nat.cast_mul,
      Nat.cast_pow, Nat.cast_ofNat]
  rw [← same, abs_mul, abs_of_pos scale]

theorem inPlaces_close (places : Nat) (m : Magnitude) :
    2 * |(m.inPlaces places : ℚ) / 10 ^ places * unitsPerOne - m.units| * 10 ^ places ≤
      unitsPerOne := by
  rw [mul_assoc, scaled_dist]
  exact roundDiv_close (m.units * 10 ^ places) unitsPerOne_pos

theorem inPlaces_eq_of_close {places n : Nat}
    (close : 2 * |(m.units : ℚ) - n / 10 ^ places * unitsPerOne| * 10 ^ places < unitsPerOne) :
    m.inPlaces places = n := by
  rw [abs_sub_comm, mul_assoc, scaled_dist] at close
  exact roundDiv_of_near close

end Magnitude

theorem smallest_place : (2 : ℚ) ^ (-1022 : ℤ) - 2 ^ (-1075 : ℤ) ≤ 1 / 10 ^ 13 := by
  have power : (2 : ℚ) ^ (-1022 : ℤ) ≤ 2 ^ (-44 : ℤ) := zpow_le_zpow_right₀ one_le_two (by decide)
  have below : (0 : ℚ) < 2 ^ (-1075 : ℤ) := by positivity
  have place : (2 : ℚ) ^ (-44 : ℤ) ≤ 1 / 10 ^ 13 := by norm_num
  exact (sub_le_self _ below.le).trans (power.trans place)

theorem readNumber_placed (negative : Bool) (n : Nat) :
    ∃ rank, Rank.IsNearest (n / 10 ^ 13 * unitsPerOne) rank ∧ ∀ h : rank < 2047 * 2 ^ 52,
      readNumber (withSign negative (placed 13 n)) = .ok (.finite negative ⟨rank, h⟩) := by
  let d := DecimalText.ofPlaced negative 13 n none
  have formed : d.WellFormed := DecimalText.ofPlaced_wellFormed negative 13 n none
  have text : withSign negative (placed 13 n) = d.text := by
    rw [DecimalText.text_ofPlaced]
    simp
  have value : d.value = ⟨negative, n, -13⟩ := DecimalText.value_ofPlaced negative 13 n none
  have magnitude : d.value.magnitude = n / 10 ^ 13 := by
    rw [value, Decimal.magnitude, zpow_neg, ← div_eq_mul_inv]
    norm_cast
  obtain ⟨rank, nearest, read⟩ := d.value.nearest_rank
  rw [magnitude] at nearest
  refine ⟨rank, nearest, fun h => ?_⟩
  have inside : (Numeral.decimal d).inRange := by
    rw [inRange_iff formed, d.exact_eq]
    rintro ⟨nonzero, large | small⟩
    · have finite := nearest.finite_iff.mp h
      rw [← Binary64.largest_units, mul_lt_mul_iff_left₀ Binary64.unit_pos, ← magnitude,
        ← Decimal.abs_exact] at finite
      exact absurd large (not_le.mpr finite)
    · -- A multiple of the last place is zero or no smaller than that place.
      have positive : (1 : ℚ) ≤ n := by
        have coefficient := (Decimal.exact_eq_zero_iff d.value).not.mp nonzero
        rw [value] at coefficient
        exact_mod_cast Nat.pos_of_ne_zero coefficient
      have place := div_le_div_of_nonneg_right positive (by positivity : (0 : ℚ) ≤ 10 ^ 13)
      rw [Decimal.abs_exact, magnitude] at small
      exact absurd small (not_lt.mpr (smallest_place.trans place))
  rw [text, readNumber_decimal formed (DecimalText.dropWhile_text formed), if_pos inside, read, value,
    Binary64.ofRank, dif_pos h]

-- The rank of 512.
def wideRank : Nat := 1032 * 2 ^ 52

theorem units_wideRank : (Rank.units wideRank : ℚ) = 512 * unitsPerOne := by
  have parts : wideRank = 1031 * 2 ^ 52 + 4503599627370496 := by decide
  have units := Rank.units_of_coefficient (s := 1031) (k := 4503599627370496) (by decide)
    (.inr (by decide))
  have power : (2 : ℚ) ^ 1074 = 2 ^ 43 * 2 ^ 1031 := pow_add 2 43 1031
  rw [parts, units, Binary64.unit_eq]
  simp only [Nat.cast_mul, Nat.cast_pow, Nat.cast_ofNat]
  rw [power]
  generalize (2 : ℚ) ^ 1031 = step
  ring

theorem scale_wideRank : Rank.scale wideRank = 1031 := by decide

theorem scale_narrow : Rank.scale (wideRank - 1) = 1030 := by decide

theorem step_wide : (unitsPerOne : ℚ) < 2 ^ 1031 * 10 ^ 13 := by
  have power : (2 : ℚ) ^ 1074 = 2 ^ 1031 * 2 ^ 43 := pow_add 2 1031 43
  rw [Binary64.unit_eq, power]
  exact mul_lt_mul_of_pos_left (by norm_num) (by positivity)

theorem step_narrow : (2 : ℚ) ^ 1030 * 10 ^ 13 < unitsPerOne := by
  have power : (2 : ℚ) ^ 1074 = 2 ^ 1030 * 2 ^ 44 := pow_add 2 1030 44
  rw [Binary64.unit_eq, power]
  exact mul_lt_mul_of_pos_left (by norm_num) (by positivity)

variable {m : Magnitude}

theorem inPlaces_512 (rank : m.rank = wideRank) : m.inPlaces 13 = 512 * 10 ^ 13 := by
  apply Magnitude.inPlaces_eq_of_close
  have whole : (m.units : ℚ) - (512 * 10 ^ 13 : ℕ) / 10 ^ 13 * unitsPerOne = 0 := by
    rw [units_eq, rank, units_wideRank]
    push_cast
    ring
  rw [whole, abs_zero, mul_zero, zero_mul]
  exact Binary64.unit_pos

theorem inPlaces_within_step {rank : Nat} (wide : wideRank ≤ rank) (m : Magnitude) :
    2 * |(m.inPlaces 13 : ℚ) / 10 ^ 13 * unitsPerOne - m.units| < 2 ^ Rank.scale rank := by
  have wider := Rank.two_pow_scale_le wide
  rw [scale_wideRank] at wider
  apply lt_of_mul_lt_mul_right (a := 10 ^ 13) _ (by positivity)
  calc _ ≤ (unitsPerOne : ℚ) := Magnitude.inPlaces_close 13 m
    _ < 2 ^ 1031 * 10 ^ 13 := step_wide
    _ ≤ 2 ^ Rank.scale rank * 10 ^ 13 := mul_le_mul_of_nonneg_right wider (by positivity)

theorem nearest_of_wide {rank : Nat} (wide : wideRank ≤ m.rank)
    (nearest : Rank.IsNearest (m.inPlaces 13 / 10 ^ 13 * unitsPerOne) rank) : rank = m.rank := by
  apply nearest.eq_of_between
  · have above := le_abs_self ((m.inPlaces 13 : ℚ) / 10 ^ 13 * unitsPerOne - m.units)
    have step := inPlaces_within_step wide m
    rw [Rank.halfway_above, ← units_eq]
    linarith
  · intro last same
    rw [Rank.halfway_below, ← same, ← units_eq]
    by_cases far : wideRank ≤ last
    · have below := neg_abs_le ((m.inPlaces 13 : ℚ) / 10 ^ 13 * unitsPerOne - m.units)
      have step := inPlaces_within_step far m
      linarith
    · have rank : m.rank = wideRank := by omega
      have step : (0 : ℚ) < 2 ^ Rank.scale last := by positivity
      rw [inPlaces_512 rank, units_eq, rank, units_wideRank]
      push_cast
      linarith

theorem wide_of_value (large : 512 ≤ m.value) : wideRank ≤ m.rank := by
  by_contra narrow
  have units := Rank.units_cast_lt (Nat.lt_of_not_le narrow)
  rw [Magnitude.value, le_div_iff₀ Binary64.unit_pos, units_eq, ← units_wideRank] at large
  exact absurd large (not_le.mpr units)

theorem value_nonneg (m : Magnitude) : 0 ≤ m.value :=
  div_nonneg (Nat.cast_nonneg _) Binary64.unit_pos.le

theorem finite_of_narrow {q : ℚ} {rank : Nat} (nearest : Rank.IsNearest q rank)
    (small : 2 * q < 2 * Rank.units wideRank + 2 ^ Rank.scale wideRank) :
    rank < 2047 * 2 ^ 52 := by
  have narrow : rank ≤ wideRank := (nearest wideRank).mpr (.inl (by rwa [Rank.halfway_above]))
  exact Nat.lt_of_le_of_lt narrow (by decide)

theorem readNumber_writeFixed (negative : Bool) (m : Magnitude) :
    ∃ n, readNumber (writeFixed (.finite negative m)) = .ok (.finite negative n) ∧
      |n.value - m.value| ≤ 1 / 10 ^ 13 ∧ (wideRank ≤ m.rank → n = m) := by
  obtain ⟨rank, nearest, read⟩ := readNumber_placed negative (m.inPlaces 13)
  -- From 512 on the rank is that of the number, and below 512 it is far from the last one.
  have h : rank < 2047 * 2 ^ 52 := by
    by_cases wide : wideRank ≤ m.rank
    · rw [nearest_of_wide wide nearest]
      exact m.rank_lt
    · have units := Rank.units_cast_lt (Nat.lt_of_not_le wide)
      have above := le_abs_self ((m.inPlaces 13 : ℚ) / 10 ^ 13 * unitsPerOne - m.units)
      have step := inPlaces_within_step (Nat.le_refl wideRank) m
      rw [← units_eq] at units
      exact finite_of_narrow nearest (by linarith)
  refine ⟨⟨rank, h⟩, read h, ?_, ?_⟩
  · have near := (nearest.dist m.rank).1
    have close := Magnitude.inPlaces_close 13 m
    rw [← units_eq, abs_sub_comm (m.units : ℚ)] at near
    have apart := abs_sub_le (Rank.units rank : ℚ) (m.inPlaces 13 / 10 ^ 13 * unitsPerOne) m.units
    rw [Magnitude.value, Magnitude.value, Binary64.dist_units, div_le_div_iff₀ Binary64.unit_pos
      (by positivity), one_mul, units_eq]
    have twice := mul_le_mul_of_nonneg_right (apart.trans (add_le_add_left near _))
      (by positivity : (0 : ℚ) ≤ 10 ^ 13)
    linarith
  · intro wide
    cases m
    simp [nearest_of_wide wide nearest]

/-- Thirteen places are read again to within one unit of the last place, and exactly from 512 on. -/
theorem thirteen_places_approximate (x : Binary64) :
    ∃ y, readNumber (writeFixed x) = .ok y ∧
      match x with
      | .finite negative _ => (∃ n, y = .finite negative n) ∧ |y.value - x.value| ≤ 1 / 10 ^ 13 ∧
          (512 ≤ |x.value| → y = x)
      | x => y = x := by
  cases x with
  | nan => exact ⟨.nan, rfl, rfl⟩
  | infinite negative => exact ⟨.infinite negative, by cases negative <;> rfl, rfl⟩
  | finite negative m =>
      obtain ⟨n, read, close, exact⟩ := readNumber_writeFixed negative m
      refine ⟨.finite negative n, read, ⟨n, rfl⟩, ?_, fun large => ?_⟩
      · rw [Binary64.value, Binary64.value, Binary64.abs_signed]
        exact close
      · rw [Binary64.value, abs_mul, Binary64.abs_signFactor, one_mul,
          abs_of_nonneg (value_nonneg m)] at large
        rw [exact (wide_of_value large)]

theorem thirteen_places_approximate_512 :
    let x : Binary64 := .finite true ⟨wideRank, by decide⟩
    512 ≤ |x.value| ∧ readNumber (writeFixed x) = .ok x := by
  intro x
  have value : (⟨wideRank, by decide⟩ : Magnitude).value = 512 := by
    rw [Magnitude.value, units_eq, units_wideRank, mul_div_cancel_right₀ _ Binary64.unit_pos.ne']
  have large : 512 ≤ |x.value| := by
    rw [Binary64.value, abs_mul, Binary64.abs_signFactor, value]
    norm_num
  obtain ⟨y, read, _, _, same⟩ := thirteen_places_approximate x
  exact ⟨large, by rw [read, same large]⟩

theorem readNumber_small_places (negative : Bool) {n : Nat} (small : n ≤ 512 * 10 ^ 13) :
    ∃ m : Magnitude, readNumber (withSign negative (placed 13 n)) = .ok (.finite negative m) ∧
      m.inPlaces 13 = n := by
  obtain ⟨rank, nearest, read⟩ := readNumber_placed negative n
  have below : (n : ℚ) / 10 ^ 13 * unitsPerOne ≤ Rank.units wideRank := by
    have most : (n : ℚ) ≤ 512 * 10 ^ 13 := by exact_mod_cast small
    rw [units_wideRank]
    apply mul_le_mul_of_nonneg_right _ Binary64.unit_pos.le
    rwa [div_le_iff₀ (by positivity)]
  have step : (0 : ℚ) < 2 ^ Rank.scale wideRank := by positivity
  have h : rank < 2047 * 2 ^ 52 := by
    apply finite_of_narrow nearest
    exact lt_add_of_le_of_pos (mul_le_mul_of_nonneg_left below two_pos.le) step
  refine ⟨⟨rank, h⟩, read h, Magnitude.inPlaces_eq_of_close ?_⟩
  have last : wideRank - 1 + 1 = wideRank := by decide
  have nonneg : (0 : ℚ) ≤ n / 10 ^ 13 * unitsPerOne :=
    mul_nonneg (div_nonneg n.cast_nonneg (pow_nonneg (by norm_num) 13)) Binary64.unit_pos.le
  have near := nearest.dist_le (wideRank - 1) nonneg (by rw [last]; exact below)
  rw [scale_narrow] at near
  have places := mul_le_mul_of_nonneg_right near (by positivity : (0 : ℚ) ≤ 10 ^ 13)
  exact places.trans_lt step_narrow

/-- Every text with thirteen places, up to 512 and with either sign, is read and written again byte
for byte. -/
theorem thirteen_places_kept {n : ℤ} (small : |n| ≤ 512 * 10 ^ 13) (minus : Bool) :
    let text := withSign minus
      (digits (n.natAbs / 10 ^ 13) ++ pointByte :: lastDigits 13 (n.natAbs % 10 ^ 13))
    ∃ x, readNumber text = .ok x ∧ writeFixed x = text := by
  intro text
  have most : n.natAbs ≤ 512 * 10 ^ 13 := by
    rw [Int.abs_eq_natAbs] at small
    exact_mod_cast small
  obtain ⟨m, read, same⟩ := readNumber_small_places minus most
  exact ⟨.finite minus m, read, by rw [writeFixed, fixedFractionDigits, same]; rfl⟩

theorem thirteen_places_kept_before_512 :
    |(-5119999999999999 : ℤ)| ≤ 512 * 10 ^ 13 ∧
      ∃ x, readNumber (utf8 "-511.9999999999999") = .ok x ∧
        writeFixed x = utf8 "-511.9999999999999" := by
  have small : |(-5119999999999999 : ℤ)| ≤ 512 * 10 ^ 13 := by norm_num
  exact ⟨small, thirteen_places_kept small true⟩

end ByteCursor
