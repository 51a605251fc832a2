import ByteCursor.Numeric.Significant
import ByteCursor.Proofs.Numeric.Digits
import ByteCursor.Proofs.Numeric.Grammar
import ByteCursor.Proofs.Numeric.Nearest

set_option autoImplicit false

namespace ByteCursor

namespace ExponentText

def ofInt (exponent : Int) : ExponentText where
  marker := 'e'.toUInt8
  sign := some (if exponent < 0 then minusByte else plusByte)
  digits :=
    if exponent.natAbs < 10 then lastDigits 2 exponent.natAbs
    else ByteCursor.digits exponent.natAbs

theorem ofInt_wellFormed (exponent : Int) : (ofInt exponent).WellFormed := by
  refine ⟨(by decide : isExponentMarker 'e'.toUInt8), ?_, ?_, ?_⟩
  · intro b present
    obtain rfl := Option.mem_some_iff.mp present
    split <;> decide
  · intro b present
    simp only [ofInt] at present
    split at present
    · exact isDigit_of_mem_lastDigits present
    · exact isDigit_of_mem_digits present
  · simp only [ofInt]
    split
    · intro none
      have length := length_lastDigits 2 exponent.natAbs
      rw [none] at length
      cases length
    · exact digits_ne_nil _

@[simp] theorem value_ofInt (exponent : Int) : (ofInt exponent).value = exponent := by
  have magnitude : ofDigits (ofInt exponent).digits = exponent.natAbs := by
    simp only [ofInt]
    split
    · rw [ofDigits_lastDigits, Nat.mod_eq_of_lt (by omega)]
    · exact ofDigits_digits _
  rw [value, magnitude, signed]
  by_cases negative : exponent < 0
  · have minus : isMinus (ofInt exponent).sign = true := by
      simp [ofInt, negative, isMinus]
    rw [minus, if_pos rfl]
    omega
  · have plus : isMinus (ofInt exponent).sign = false := by
      simp only [ofInt, negative, if_false]
      decide
    rw [plus, if_neg (by decide)]
    omega

end ExponentText

namespace DecimalText

def ofPlaced (negative : Bool) (places n : Nat) (exponent : Option Int) : DecimalText where
  sign := if negative then some minusByte else none
  whole := digits (n / 10 ^ places)
  fraction := if places = 0 then none else some (lastDigits places (n % 10 ^ places))
  exponent := exponent.map ExponentText.ofInt

variable (negative : Bool) (places n : Nat) (exponent : Option Int)

theorem text_ofPlaced : (ofPlaced negative places n exponent).text =
    withSign negative (placed places n ++ (exponent.map Significant.exponentText).getD []) := by
  have number : (ofPlaced negative places n exponent).whole ++
      fractionText (ofPlaced negative places n exponent).fraction = placed places n := by
    simp only [ofPlaced, placed]
    split
    · next none => simp [fractionText, none]
    · simp [fractionText]
  rw [text_eq, tail, ← List.append_assoc (ofPlaced negative places n exponent).whole, number]
  cases negative <;> cases exponent <;> rfl

theorem places_ofPlaced :
    (ofPlaced negative places n exponent).places = lastDigits places (n % 10 ^ places) := by
  simp only [DecimalText.places, ofPlaced]
  split
  · next none => rw [none]; rfl
  · rfl

theorem ofPlaced_wellFormed : (ofPlaced negative places n exponent).WellFormed := by
  refine ⟨?_, fun b => isDigit_of_mem_digits, ?_, .inl (digits_ne_nil _), ?_⟩
  · intro b present
    cases negative with
    | false => cases present
    | true =>
        obtain rfl := Option.mem_some_iff.mp present
        decide
  · rw [places_ofPlaced]
    exact fun b => isDigit_of_mem_lastDigits
  · intro e present
    obtain ⟨power, _, rfl⟩ := Option.map_eq_some_iff.mp present
    exact ExponentText.ofInt_wellFormed power

theorem value_ofPlaced : (ofPlaced negative places n exponent).value =
    ⟨negative, n, exponent.getD 0 - places⟩ := by
  have sign : isMinus (ofPlaced negative places n exponent).sign = negative := by
    cases negative <;> rfl
  have power : ((ofPlaced negative places n exponent).exponent.map ExponentText.value).getD 0 =
      exponent.getD 0 := by
    cases exponent with
    | none => rfl
    | some power => exact ExponentText.value_ofInt power
  rw [value, sign, power, places_ofPlaced, length_lastDigits]
  exact congrArg (Decimal.mk negative · _) (ofDigits_placed places n)

theorem magnitude_stripZeros :
    let stripped := stripZeros places n
    (ofPlaced negative stripped.1 stripped.2 exponent).value.magnitude =
      n * 10 ^ (exponent.getD 0 - places) := by
  intro stripped
  obtain ⟨fewer, same⟩ := stripZeros_spec places n
  change stripped.1 ≤ places at fewer
  change stripped.2 * 10 ^ (places - stripped.1) = n at same
  have power : exponent.getD 0 - (stripped.1 : ℤ) =
      ((places - stripped.1 : ℕ) : ℤ) + (exponent.getD 0 - places) := by omega
  rw [value_ofPlaced, Decimal.magnitude]
  dsimp only
  rw [power, zpow_add₀ (by norm_num), zpow_natCast, ← mul_assoc]
  congr 1
  exact_mod_cast same

end DecimalText

theorem unitsPerOne_pos : 0 < unitsPerOne := by
  unfold unitsPerOne
  positivity

theorem roundDiv_close (num : Nat) {den : Nat} (positive : 0 < den) :
    2 * |(den : ℚ) * roundDiv num den - num| ≤ den := by
  have lower : (2 : ℚ) * num ≤ 2 * (den * roundDiv num den) + den := by
    exact_mod_cast roundDiv_lower num den positive
  have upper : (2 : ℚ) * (den * roundDiv num den) ≤ 2 * num + den := by
    exact_mod_cast roundDiv_upper num den positive
  have half : |(den : ℚ) * roundDiv num den - num| ≤ den / 2 :=
    abs_le.mpr ⟨by linarith, by linarith⟩
  linarith

theorem roundDiv_of_near {num den c : Nat} (near : 2 * |(den : ℚ) * c - num| < den) :
    roundDiv num den = c := by
  rw [← lt_div_iff₀' two_pos] at near
  obtain ⟨below, above⟩ := abs_lt.mp near
  apply roundDiv_eq_of_close
  · have less : (2 : ℚ) * num < 2 * (den * c) + den := by linarith
    exact_mod_cast less
  · have less : (2 : ℚ) * (den * c) < 2 * num + den := by linarith
    exact_mod_cast less

namespace Significant

def value (s : Significant) : ℚ := s.coefficient * 10 ^ (s.exponent + 1 - s.precision)

def decimalText (negative : Bool) (s : Significant) : DecimalText :=
  let stripped := stripZeros (if s.isScientific then s.precision - 1 else s.places) s.coefficient
  .ofPlaced negative stripped.1 stripped.2 (if s.isScientific then some s.exponent else none)

theorem inPlaces_eq {precision : Nat} (some : 0 < precision) (m : Magnitude)
    (plain : ¬ (ofMagnitude precision m).isScientific) :
    m.inPlaces (ofMagnitude precision m).places = (ofMagnitude precision m).coefficient := by
  have first : 0 < 10 ^ (firstPlace m + 1) := Nat.pow_pos (by decide)
  have scaled : ∀ places, lastPlace + precision = places + (firstPlace m + 1) →
      rounded precision m = roundDiv (m.units * 10 ^ places) unitsPerOne := by
    intro places same
    rw [rounded, same, Nat.pow_add, ← Nat.mul_assoc, roundDiv_mul_right _ _ first]
  rw [isScientific_iff] at plain
  unfold ofMagnitude at *
  by_cases carry : rounded precision m = 10 ^ precision
  · -- The carry takes a place away from the plain form, and what was rounded ended in a zero.
    simp only [carry, if_true, places] at plain ⊢
    have power : 10 ^ precision = 10 ^ (precision - 1) * 10 := (Nat.pow_pred_mul some).symm
    apply roundDiv_of_tenfold unitsPerOne_pos
    rw [← power, ← carry, Nat.mul_assoc, ← Nat.pow_succ]
    exact (scaled _ (by omega)).symm
  · simp only [carry, if_false, places] at plain ⊢
    exact (scaled _ (by omega)).symm

theorem text_decimalText (negative : Bool) {precision : Nat} (some : 0 < precision)
    (m : Magnitude) : ((ofMagnitude precision m).decimalText negative).text =
      withSign negative ((ofMagnitude precision m).text m) := by
  rw [decimalText, DecimalText.text_ofPlaced, text]
  by_cases scientific : (ofMagnitude precision m).isScientific
  · simp [scientific, trimmed]
  · simp [scientific, trimmed, inPlaces_eq some m scientific]

theorem decimalText_negative (negative : Bool) (s : Significant) :
    (s.decimalText negative).value.negative = negative := by
  rw [decimalText, DecimalText.value_ofPlaced]

theorem magnitude_decimalText (negative : Bool) {s : Significant} (some : 0 < s.precision) :
    (s.decimalText negative).value.magnitude = s.value := by
  rw [decimalText, DecimalText.magnitude_stripZeros, value]
  congr 2
  by_cases scientific : s.isScientific
  · simp only [scientific, if_true, Option.getD_some]
    omega
  · rw [← (plain_places scientific).1]
    simp [scientific]

variable {m : Magnitude}

theorem units_pos (nonzero : m ≠ .zero) : 0 < m.units := by
  have rank : 0 < m.rank := by
    apply Nat.pos_of_ne_zero
    intro none
    apply nonzero
    cases m
    simpa [Magnitude.zero] using none
  rw [units_eq]
  exact Nat.lt_of_lt_of_le (by decide) (Rank.units_strictMono.monotone rank)

theorem unitsPerOne_le : unitsPerOne ≤ 10 ^ lastPlace := by decide +kernel

theorem ten_pow_firstPlace (nonzero : m ≠ .zero) :
    unitsPerOne * 10 ^ firstPlace m ≤ m.units * 10 ^ lastPlace := by
  apply ten_pow_digitCount_div unitsPerOne_pos
  exact unitsPerOne_le.trans (Nat.le_mul_of_pos_left _ (units_pos nonzero))

theorem value_ofMagnitude {precision : Nat} (some : 0 < precision) (m : Magnitude) :
    (ofMagnitude precision m).value * 10 ^ (lastPlace + precision) =
      rounded precision m * 10 ^ (firstPlace m + 1) := by
  unfold ofMagnitude
  generalize rounded precision m = rounded
  generalize firstPlace m = place
  have shift : ∀ c : ℚ, ∀ e : ℤ, e + (lastPlace + precision) = place + 1 →
      c * 10 ^ e * 10 ^ (lastPlace + precision) = c * 10 ^ (place + 1) := by
    intro c e same
    have power : e + ((lastPlace + precision : ℕ) : ℤ) = ((place + 1 : ℕ) : ℤ) := by
      push_cast
      exact same
    rw [mul_assoc, ← zpow_natCast, ← zpow_add₀ (by norm_num), ← zpow_natCast, power]
  split
  · next carry =>
      have first : (10 : ℚ) ^ precision = 10 ^ (precision - 1) * 10 := by
        rw [← pow_succ, Nat.sub_add_cancel some]
      have whole : (10 : ℚ) ^ ((place : ℤ) + 1 - lastPlace + 1 - precision) =
          10 * 10 ^ ((place : ℤ) + 1 - lastPlace - precision) := by
        rw [← zpow_one_add₀ (by norm_num)]
        congr 1
        ring
      rw [value, carry]
      push_cast
      rw [whole, first, ← mul_assoc]
      exact shift _ _ (by ring)
  · exact shift _ _ (by ring)

theorem close_of_scaled {v unit units scale first rounded : ℚ} (positive : 0 < scale)
    (value : v * scale = rounded * first)
    (near : 2 * |unit * first * rounded - units * scale| ≤ unit * first) :
    2 * |v * unit - units| * scale ≤ unit * first := by
  have scaled : unit * first * rounded - units * scale = (v * unit - units) * scale := by
    rw [sub_mul, mul_right_comm v, value]
    ring
  rw [scaled, abs_mul, abs_of_pos positive, ← mul_assoc] at near
  exact near

theorem ofMagnitude_close {precision : Nat} (some : 0 < precision) (nonzero : m ≠ .zero) :
    2 * |(ofMagnitude precision m).value * unitsPerOne - m.units| * 10 ^ precision ≤
      10 * m.units := by
  have unit : 0 < unitsPerOne * 10 ^ (firstPlace m + 1) :=
    Nat.mul_pos unitsPerOne_pos (Nat.pow_pos (by decide))
  have near := roundDiv_close (m.units * 10 ^ (lastPlace + precision)) unit
  have value := value_ofMagnitude some m
  change 2 * |_ * (rounded precision m : ℚ) - _| ≤ _ at near
  generalize rounded precision m = rounded at near value
  push_cast at near
  have first : (unitsPerOne : ℚ) * 10 ^ firstPlace m ≤ m.units * 10 ^ lastPlace := by
    exact_mod_cast ten_pow_firstPlace nonzero
  have close := close_of_scaled (by positivity) value near
  have power : (0 : ℚ) < 10 ^ lastPlace := by positivity
  apply le_of_mul_le_mul_right _ power
  calc 2 * |(ofMagnitude precision m).value * unitsPerOne - m.units| * 10 ^ precision *
          10 ^ lastPlace
      = 2 * |(ofMagnitude precision m).value * unitsPerOne - m.units| *
          10 ^ (lastPlace + precision) := by ring
    _ ≤ unitsPerOne * 10 ^ (firstPlace m + 1) := close
    _ = 10 * (unitsPerOne * 10 ^ firstPlace m) := by ring
    _ ≤ 10 * (m.units * 10 ^ lastPlace) := mul_le_mul_of_nonneg_left first (by norm_num)
    _ = 10 * m.units * 10 ^ lastPlace := by ring

end Significant

end ByteCursor
