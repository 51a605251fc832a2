import ByteCursor.Proofs.Numeric.FixedPlaces
import ByteCursor.Proofs.Numeric.Stability
import Mathlib.Algebra.Order.Floor.Semifield
import Mathlib.Data.Rat.Floor

set_option autoImplicit false

namespace ByteCursor

def IsNearestMultiple (unit q : ℚ) (n : ℕ) : Prop :=
  ∀ k : ℤ, |n * unit - q| ≤ |k * unit - q| ∧
    (k ≠ n → |n * unit - q| = |k * unit - q| → n % 2 = 0)

theorem isNearestMultiple_of_half {unit q : ℚ} {n : ℕ} (positive : 0 < unit)
    (below : 2 * (n * unit) - unit ≤ 2 * q) (above : 2 * q ≤ 2 * (n * unit) + unit)
    (even : 2 * (n * unit) - unit = 2 * q ∨ 2 * q = 2 * (n * unit) + unit → n % 2 = 0) :
    IsNearestMultiple unit q n := by
  intro k
  rcases lt_trichotomy k n with less | same | more
  · have step : (k : ℚ) * unit + unit ≤ n * unit := by
      have next : ((k + 1 : ℤ) : ℚ) ≤ (n : ℤ) := Int.cast_le.mpr less
      push_cast at next
      linarith [mul_le_mul_of_nonneg_right next positive.le]
    have apart : (k : ℚ) * unit < n * unit := by linarith
    refine ⟨(Rank.nearer_above apart).mpr (by linarith), fun _ equal => even (.inl ?_)⟩
    have between := (Rank.nearer_below apart).mp equal.ge
    linarith
  · rw [same]
    exact ⟨le_refl _, fun differ => absurd rfl differ⟩
  · have step : (n : ℚ) * unit + unit ≤ k * unit := by
      have next : ((n + 1 : ℤ) : ℚ) ≤ k := Int.cast_le.mpr more
      push_cast at next
      linarith [mul_le_mul_of_nonneg_right next positive.le]
    have apart : (n : ℚ) * unit < k * unit := by linarith
    refine ⟨(Rank.nearer_below apart).mpr (by linarith), fun _ equal => even (.inr ?_)⟩
    have between := (Rank.nearer_above apart).mp equal.ge
    linarith

theorem roundDiv_isNearestMultiple {unit q : ℚ} {num den : ℕ} (positive : 0 < unit)
    (divisor : 0 < den) (scaled : den * q = num * unit) :
    IsNearestMultiple unit q (roundDiv num den) := by
  have cast : (0 : ℚ) < den := Nat.cast_pos.mpr divisor
  have lower : (2 : ℚ) * num ≤ 2 * (den * roundDiv num den) + den := by
    exact_mod_cast roundDiv_lower num den divisor
  have upper : (2 : ℚ) * (den * roundDiv num den) ≤ 2 * num + den := by
    exact_mod_cast roundDiv_upper num den divisor
  have half := roundDiv_half num den divisor
  generalize roundDiv num den = n at lower upper half
  have double : den * (2 * q) = 2 * num * unit := by linarith
  have least : den * (2 * (n * unit) - unit) = (2 * (den * n) - den) * unit := by ring
  have most : den * (2 * (n * unit) + unit) = (2 * (den * n) + den) * unit := by ring
  apply isNearestMultiple_of_half positive
  · rw [← mul_le_mul_iff_right₀ cast, double, least]
    exact mul_le_mul_of_nonneg_right (by linarith) positive.le
  · rw [← mul_le_mul_iff_right₀ cast, double, most]
    exact mul_le_mul_of_nonneg_right lower positive.le
  · rintro (tie | tie)
    · have equal : (2 * (den * n) - den : ℚ) * unit = 2 * num * unit := by
        rw [← least, tie, double]
      have whole : (2 : ℚ) * num + den = 2 * (den * n) := by
        linarith [mul_right_cancel₀ positive.ne' equal]
      exact half (.inr (by exact_mod_cast whole))
    · have equal : (2 * num : ℚ) * unit = (2 * (den * n) + den) * unit := by
        rw [← most, ← tie, double]
      have whole : (2 : ℚ) * num = 2 * (den * n) + den := mul_right_cancel₀ positive.ne' equal
      exact half (.inl (by exact_mod_cast whole))

structure IsWhole (ds : Bytes) : Prop where
  digits : ∀ b ∈ ds, isDigit b
  present : ds ≠ []
  first : ds.head? = some '0'.toUInt8 → ds = ['0'.toUInt8]

theorem digits_isWhole (n : ℕ) : IsWhole (digits n) := by
  refine ⟨fun b => isDigit_of_mem_digits, digits_ne_nil n, fun zero => ?_⟩
  rcases Nat.eq_zero_or_pos n with rfl | positive
  · rfl
  · exact absurd zero (digits_head positive)

theorem withSign_head (negative : Bool) {text : Bytes} (starts : ∀ b ∈ text.head?, isDigit b) :
    (withSign negative text).head? = some minusByte ↔ negative := by
  cases negative with
  | true => simp [withSign]
  | false =>
      simp only [withSign, Bool.false_eq_true, if_false, iff_false]
      intro head
      exact absurd (starts minusByte head) (by decide)

theorem Binary64.sign_toBits (negative : Bool) (m : Magnitude) :
    decide (2 ^ 63 ≤ (Binary64.finite negative m).toBits.toNat) = negative := by
  have bound := m.rank_lt
  rw [Binary64.toNat_toBits_finite]
  cases negative <;> simp [Binary64.signBit]
  omega

theorem Binary64.abs_value (negative : Bool) (m : Magnitude) :
    |(Binary64.finite negative m).value| = m.value := by
  rw [Binary64.value, abs_mul, Binary64.abs_signFactor, one_mul, abs_of_nonneg (value_nonneg m)]

theorem Magnitude.unitsPerOne_mul_value (m : Magnitude) : (unitsPerOne : ℚ) * m.value = m.units :=
  mul_div_cancel₀ _ Binary64.unit_pos.ne'

theorem Magnitude.inPlaces_isNearest (m : Magnitude) (places : ℕ) :
    IsNearestMultiple (1 / 10 ^ places) m.value (m.inPlaces places) := by
  apply roundDiv_isNearestMultiple (by positivity) unitsPerOne_pos
  push_cast
  rw [Magnitude.unitsPerOne_mul_value, mul_assoc, mul_one_div_cancel (by positivity), mul_one]

/-- Thirteen places count the multiple of `10 ^ (-13)` nearest to the magnitude. -/
theorem thirteen_places_nearest (negative : Bool) (m : Magnitude) :
    let x := Binary64.finite negative m
    ∃ whole fraction,
      writeFixed x = withSign (2 ^ 63 ≤ x.toBits.toNat) (whole ++ pointByte :: fraction) ∧
      IsWhole whole ∧ (∀ b ∈ fraction, isDigit b) ∧ fraction.length = 13 ∧
      IsNearestMultiple (1 / 10 ^ 13) |x.value| (ofDigits (whole ++ fraction)) := by
  intro x
  let n := m.inPlaces 13
  refine ⟨digits (n / 10 ^ 13), lastDigits 13 (n % 10 ^ 13), ?_, digits_isWhole _,
    fun b => isDigit_of_mem_lastDigits, length_lastDigits 13 _, ?_⟩
  · rw [Binary64.sign_toBits]
    rfl
  · rw [ofDigits_placed, Binary64.abs_value]
    exact m.inPlaces_isNearest 13

namespace DecimalText

structure IsScientific (t : DecimalText) : Prop where
  whole : ∃ b, t.whole = [b] ∧ b ≠ '0'.toUInt8
  exponent : ∃ e, t.exponent = some e ∧ e.marker = 'e'.toUInt8 ∧ e.sign.isSome ∧
    2 ≤ e.digits.length

structure IsPlain (t : DecimalText) : Prop where
  whole : IsWhole t.whole
  exponent : t.exponent = none

def IsTrimmed (t : DecimalText) : Prop :=
  ∀ fraction, t.fraction = some fraction → fraction ≠ [] ∧ fraction.getLast? ≠ some '0'.toUInt8

theorem IsPlain.not_isScientific {t : DecimalText} (plain : t.IsPlain) : ¬ t.IsScientific := by
  rintro ⟨_, e, written, _⟩
  rw [plain.exponent] at written
  cases written

theorem ofPlaced_isTrimmed (negative : Bool) (places n : ℕ) (exponent : Option ℤ) :
    (ofPlaced negative (stripZeros places n).1 (stripZeros places n).2 exponent).IsTrimmed := by
  intro fraction written
  have last : (stripZeros places n).1 ≠ 0 → (stripZeros places n).2 % 10 ≠ 0 := stripZeros_last
  generalize stripZeros places n = stripped at last written
  by_cases none : stripped.1 = 0
  · simp [ofPlaced, none] at written
  · simp only [ofPlaced, none, if_false, Option.some.injEq] at written
    have same : stripped.2 % 10 ^ stripped.1 % 10 = stripped.2 % 10 :=
      Nat.mod_mod_of_dvd _ (dvd_pow_self 10 none)
    rw [← written]
    refine ⟨?_, getLast?_lastDigits none (by rw [same]; exact last none)⟩
    rw [← List.length_pos_iff, length_lastDigits]
    omega

end DecimalText

/-- `d` is `q` to so many significant digits: the multiple of the unit of the last of them that is
nearest to `q`, counted from the place of the first digit of `q`. -/
def IsRounded (precision : ℕ) (q d : ℚ) : Prop :=
  ∃ (place : ℤ) (n : ℕ), 10 ^ place ≤ q ∧ q < 10 ^ (place + 1) ∧
    IsNearestMultiple (10 ^ (place + 1 - precision)) q n ∧ d = n * 10 ^ (place + 1 - precision)

namespace Significant

variable {m : Magnitude}

theorem ten_zpow_sub (a b : ℕ) : (10 : ℚ) ^ ((a : ℤ) - b) = 10 ^ a / 10 ^ b := by
  rw [zpow_sub₀ (by norm_num), zpow_natCast, zpow_natCast]

theorem firstPlace_le_value (nonzero : m ≠ .zero) :
    (10 : ℚ) ^ ((firstPlace m : ℤ) - lastPlace) ≤ m.value := by
  have first : (unitsPerOne : ℚ) * 10 ^ firstPlace m ≤ m.units * 10 ^ lastPlace := by
    exact_mod_cast ten_pow_firstPlace nonzero
  rw [ten_zpow_sub, Magnitude.value, div_le_div_iff₀ (by positivity) Binary64.unit_pos]
  linarith

theorem value_lt_firstPlace (m : Magnitude) :
    m.value < (10 : ℚ) ^ ((firstPlace m : ℤ) - lastPlace + 1) := by
  have next : (m.units : ℚ) * 10 ^ lastPlace < unitsPerOne * 10 ^ (firstPlace m + 1) := by
    exact_mod_cast lt_ten_pow_firstPlace m
  have place : (firstPlace m : ℤ) - lastPlace + 1 = ((firstPlace m + 1 : ℕ) : ℤ) - lastPlace := by
    push_cast
    ring
  rw [place, ten_zpow_sub, Magnitude.value, div_lt_div_iff₀ Binary64.unit_pos (by positivity)]
  linarith

theorem lastUnit_scaled (precision : ℕ) (m : Magnitude) :
    (10 : ℚ) ^ ((firstPlace m : ℤ) - lastPlace + 1 - precision) * 10 ^ (lastPlace + precision) =
      10 ^ (firstPlace m + 1) := by
  rw [← zpow_natCast, ← zpow_natCast, ← zpow_add₀ (by norm_num)]
  congr 1
  push_cast
  ring

theorem ofMagnitude_isRounded {precision : ℕ} (some : 0 < precision) (nonzero : m ≠ .zero) :
    IsRounded precision m.value (ofMagnitude precision m).value := by
  have unit := lastUnit_scaled precision m
  refine ⟨firstPlace m - lastPlace, rounded precision m, firstPlace_le_value nonzero,
    value_lt_firstPlace m, ?_, ?_⟩
  · apply roundDiv_isNearestMultiple (by positivity) (lastUnit_pos m)
    push_cast
    rw [← unit, ← Magnitude.unitsPerOne_mul_value]
    ring
  · have scale : (10 : ℚ) ^ (lastPlace + precision) ≠ 0 := by positivity
    apply mul_right_cancel₀ scale
    rw [value_ofMagnitude some, mul_assoc, unit]

theorem exponent_place {s : Significant} (canonical : s.Canonical) :
    (10 : ℚ) ^ s.exponent ≤ s.value ∧ s.value < 10 ^ (s.exponent + 1) := by
  have lower : (10 : ℚ) ^ (s.precision - 1) ≤ s.coefficient := by exact_mod_cast canonical.lower
  have upper : (s.coefficient : ℚ) < 10 ^ s.precision := by exact_mod_cast canonical.upper
  have step : (0 : ℚ) < 10 ^ (s.exponent + 1 - s.precision) := by positivity
  have some := canonical.precision
  have first : (10 : ℚ) ^ s.exponent =
      10 ^ (s.precision - 1) * 10 ^ (s.exponent + 1 - s.precision) := by
    rw [← zpow_natCast, ← zpow_add₀ (by norm_num)]
    congr 1
    omega
  have next : (10 : ℚ) ^ (s.exponent + 1) =
      10 ^ s.precision * 10 ^ (s.exponent + 1 - s.precision) := by
    rw [← zpow_natCast, ← zpow_add₀ (by norm_num)]
    congr 1
    omega
  rw [first, next, value]
  exact ⟨mul_le_mul_of_nonneg_right lower step.le, mul_lt_mul_of_pos_right upper step⟩

theorem units_lt (m : Magnitude) : m.units < 2 ^ 1024 * unitsPerOne := by
  have scale : m.scale ≤ 2045 := by
    have bound := m.rank_lt
    unfold Magnitude.scale
    omega
  have split : 2 ^ (1024 + 1074) = 2 ^ 1024 * unitsPerOne := by rw [Nat.pow_add, unitsPerOne]
  rw [← split]
  calc m.units < 2 ^ 53 * 2 ^ m.scale :=
        Nat.mul_lt_mul_of_pos_right m.coefficient_lt (Nat.two_pow_pos _)
    _ = 2 ^ (53 + m.scale) := (Nat.pow_add 2 53 _).symm
    _ ≤ 2 ^ (1024 + 1074) := Nat.pow_le_pow_right two_pos (by omega)

theorem firstPlace_lt (nonzero : m ≠ .zero) : firstPlace m < 309 + lastPlace := by
  have most : 2 ^ 1024 ≤ 10 ^ 309 := by decide +kernel
  have scaled : unitsPerOne * 10 ^ firstPlace m < unitsPerOne * 10 ^ (309 + lastPlace) := by
    calc unitsPerOne * 10 ^ firstPlace m ≤ m.units * 10 ^ lastPlace := ten_pow_firstPlace nonzero
      _ < 2 ^ 1024 * unitsPerOne * 10 ^ lastPlace :=
        Nat.mul_lt_mul_of_pos_right (units_lt m) (Nat.pow_pos (by decide))
      _ ≤ 10 ^ 309 * unitsPerOne * 10 ^ lastPlace :=
        Nat.mul_le_mul_right _ (Nat.mul_le_mul_right _ most)
      _ = unitsPerOne * 10 ^ (309 + lastPlace) := by
        rw [Nat.pow_add, Nat.mul_comm (10 ^ 309), Nat.mul_assoc]
  have power : 10 ^ firstPlace m < 10 ^ (309 + lastPlace) := by
    generalize unitsPerOne = unit at scaled
    exact Nat.lt_of_mul_lt_mul_left scaled
  exact (Nat.pow_lt_pow_iff_right (by decide)).mp power

theorem exponent_bounds (precision : ℕ) (nonzero : m ≠ .zero) :
    -324 ≤ (ofMagnitude precision m).exponent ∧ (ofMagnitude precision m).exponent ≤ 309 := by
  have place := firstPlace_lt nonzero
  unfold ofMagnitude lastPlace at *
  split <;> dsimp only <;> omega

theorem length_exponentText_le {exponent : ℤ} (lower : -1000 < exponent) (upper : exponent < 1000) :
    (exponentText exponent).length ≤ 5 := by
  have count : digitCount exponent.natAbs ≤ 3 := (digitCount_le_iff (by decide)).mpr (by omega)
  simp only [exponentText, List.length_cons]
  split
  · rw [length_lastDigits]
    omega
  · rw [length_digits]
    omega

variable {s : Significant}

theorem first_digit (canonical : s.Canonical) :
    0 < s.coefficient / 10 ^ (s.precision - 1) ∧ s.coefficient / 10 ^ (s.precision - 1) < 10 := by
  have positive : 0 < 10 ^ (s.precision - 1) := Nat.pow_pos (by decide)
  have power : 10 ^ s.precision = 10 * 10 ^ (s.precision - 1) := by
    rw [Nat.mul_comm, Nat.pow_pred_mul canonical.precision]
  constructor
  · exact Nat.div_pos canonical.lower positive
  · rw [Nat.div_lt_iff_lt_mul positive, ← power]
    exact canonical.upper

theorem decimalText_isScientific (negative : Bool) (canonical : s.Canonical)
    (scientific : s.isScientific) : (s.decimalText negative).IsScientific := by
  obtain ⟨positive, small⟩ := first_digit canonical
  simp only [decimalText, scientific, if_true]
  constructor
  · obtain ⟨b, same⟩ := digits_of_lt small
    have head := digits_head positive
    refine ⟨b, ?_, by simpa [same] using head⟩
    rw [← same, ← stripZeros_div]
    rfl
  · refine ⟨.ofInt s.exponent, rfl, rfl, rfl, ?_⟩
    simp only [ExponentText.ofInt]
    split
    · rw [length_lastDigits]
    · next large =>
      have count := (digitCount_le_iff (n := s.exponent.natAbs) one_pos).not.mpr (by omega)
      rw [length_digits]
      omega

theorem decimalText_isPlain (negative : Bool) (plain : ¬ s.isScientific) :
    (s.decimalText negative).IsPlain := by
  simp only [decimalText, plain, Bool.false_eq_true, if_false]
  exact ⟨digits_isWhole _, rfl⟩

theorem decimalText_isTrimmed (negative : Bool) (s : Significant) :
    (s.decimalText negative).IsTrimmed := by
  unfold decimalText
  exact DecimalText.ofPlaced_isTrimmed _ _ _ _

theorem decimalText_whole (negative : Bool) (plain : ¬ s.isScientific) :
    (s.decimalText negative).whole = digits ⌊s.value⌋₊ := by
  have value : s.value = s.coefficient / (10 ^ s.places : ℕ) := by
    rw [Significant.value, ← (plain_places plain).1, zpow_neg, zpow_natCast, div_eq_mul_inv]
    push_cast
    rfl
  rw [value, Nat.floor_div_natCast, Nat.floor_natCast]
  simp only [decimalText, plain, Bool.false_eq_true, if_false, DecimalText.ofPlaced]
  rw [stripZeros_div]

theorem length_withSign_le (negative : Bool) (text : Bytes) :
    (withSign negative text).length ≤ text.length + 1 := by
  cases negative <;> simp [withSign]

theorem length_decimalText_le (negative : Bool) (canonical : s.Canonical) (few : s.precision ≤ 17)
    (lower : -1000 < s.exponent) (upper : s.exponent < 1000) :
    (s.decimalText negative).text.length ≤ 24 := by
  rw [decimalText, DecimalText.text_ofPlaced]
  apply (length_withSign_le negative _).trans
  rw [List.length_append]
  by_cases scientific : s.isScientific
  · have number := length_trimmed_le (s.precision - 1) s.coefficient
    have one := (digitCount_le_iff one_pos).mpr (first_digit canonical).2
    have exponent := length_exponentText_le lower upper
    simp only [scientific, if_true, Option.map_some, Option.getD_some]
    rw [trimmed] at number
    omega
  · have number := length_trimmed_le s.places s.coefficient
    have whole := digitCount_div_le canonical.upper s.places
    have places := (plain_places scientific).2
    simp only [scientific, Bool.false_eq_true, if_false, Option.map_none, Option.getD_none,
      List.length_nil]
    rw [trimmed] at number
    omega

end Significant

theorem Binary64.value_neg_iff {negative : Bool} {m : Magnitude} (nonzero : m ≠ .zero) :
    (Binary64.finite negative m).value < 0 ↔ negative := by
  have units : (0 : ℚ) < m.units := by exact_mod_cast Significant.units_pos nonzero
  have positive : 0 < m.value := div_pos units Binary64.unit_pos
  cases negative with
  | true => simpa [Binary64.value, signFactor] using positive
  | false => simpa [Binary64.value, signFactor] using positive.le

theorem DecimalText.ofPlaced_minus_iff (negative : Bool) (places n : ℕ) (exponent : Option ℤ) :
    (DecimalText.ofPlaced negative places n exponent).text.head? = some minusByte ↔ negative := by
  rw [DecimalText.text_ofPlaced]
  apply withSign_head
  intro b head
  obtain ⟨first, others, whole⟩ := List.exists_cons_of_ne_nil (digits_ne_nil (n / 10 ^ places))
  have digit : isDigit first := isDigit_of_mem_digits (by rw [whole]; exact List.mem_cons_self)
  have front : (placed places n).head? = some first := by
    unfold placed
    split
    · next none => simpa [none] using congrArg List.head? whole
    · simp [whole]
  simp only [List.head?_append, front, Option.some_or, Option.mem_some_iff] at head
  rwa [← head]

theorem DecimalText.ofPlaced_sign (negative : Bool) (places n : ℕ) (exponent : Option ℤ) :
    (DecimalText.ofPlaced negative places n exponent).sign ≠ some plusByte := by
  change (if negative then some minusByte else none) ≠ some plusByte
  revert negative
  decide

/-- The text denotes exactly the decimal that the number is rounded to, and the place of its first
digit after that chooses the form. -/
theorem significant_digits_form (wanted : ℕ) (negative : Bool) {m : Magnitude}
    (nonzero : m ≠ .zero) :
    let x := Binary64.finite negative m
    let precision := max 1 (min wanted 17)
    ∃ (d : ℚ) (place : ℤ) (t : DecimalText),
      IsRounded precision |x.value| d ∧ 10 ^ place ≤ d ∧ d < 10 ^ (place + 1) ∧
      writeSignificant wanted x = t.text ∧ t.WellFormed ∧ t.sign ≠ some plusByte ∧
      t.value.exact = signFactor negative * d ∧
      (t.IsScientific ↔ place < -4 ∨ precision ≤ place) ∧
      (t.IsPlain ↔ ¬ (place < -4 ∨ precision ≤ place)) ∧
      (t.IsPlain → t.whole = digits ⌊d⌋₊) ∧ t.IsTrimmed ∧
      ((writeSignificant wanted x).head? = some minusByte ↔ x.value < 0) ∧
      (writeSignificant wanted x).length ≤ 24 := by
  intro x precision
  have clamped : clampDigits wanted = precision := rfl
  have some : 0 < precision := Nat.le_max_left 1 _
  have rounded := Significant.ofMagnitude_isRounded some nonzero
  have canonical := Significant.ofMagnitude_canonical some nonzero
  have kept := Significant.precision_ofMagnitude precision m
  obtain ⟨lower, upper⟩ := Significant.exponent_bounds precision nonzero
  have text : writeSignificant wanted x =
      ((Significant.ofMagnitude precision m).decimalText negative).text := by
    rw [← Significant.text_written, Significant.written, if_neg nonzero, clamped]
  generalize Significant.ofMagnitude precision m = s at rounded canonical kept lower upper text
  obtain ⟨least, most⟩ := Significant.exponent_place canonical
  have few : s.precision ≤ 17 := by omega
  have form : s.isScientific ↔ s.exponent < -4 ∨ (precision : ℤ) ≤ s.exponent := by
    rw [s.isScientific_iff, kept]
  have scientific := Significant.decimalText_isScientific negative canonical
  have plain := Significant.decimalText_isPlain (s := s) negative
  refine ⟨s.value, s.exponent, s.decimalText negative, ?_, least, most, text,
    DecimalText.ofPlaced_wellFormed .., DecimalText.ofPlaced_sign _ _ _ _, ?_, ?_, ?_, ?_,
    Significant.decimalText_isTrimmed negative s, ?_, ?_⟩
  · rw [Binary64.abs_value]
    exact rounded
  · rw [Decimal.exact, Significant.decimalText_negative,
      Significant.magnitude_decimalText negative canonical.precision]
  · rw [← form]
    refine ⟨fun shown => ?_, scientific⟩
    by_contra other
    exact (plain other).not_isScientific shown
  · rw [← form]
    exact ⟨fun shown chosen => shown.not_isScientific (scientific chosen), plain⟩
  · intro shown
    exact Significant.decimalText_whole negative fun chosen =>
      shown.not_isScientific (scientific chosen)
  · rw [text, Binary64.value_neg_iff nonzero]
    exact DecimalText.ofPlaced_minus_iff ..
  · rw [text]
    exact Significant.length_decimalText_le negative canonical few (by omega) (by omega)

def below1e6 : Binary64 := .finite true ⟨4696837144107705958, by decide⟩

-- The sixth digit carries into a seventh, and the exponent is the one after the carry.
theorem significant_digits_form_carried :
    writeSignificant 6 below1e6 = utf8 "-1e+06" ∧
      ∃ (d : ℚ) (place : ℤ) (t : DecimalText),
        IsRounded 6 |below1e6.value| d ∧ 10 ^ place ≤ d ∧ d < 10 ^ (place + 1) ∧
        writeSignificant 6 below1e6 = t.text ∧ t.sign ≠ some plusByte ∧
        t.value.exact = -1 * d ∧
        (t.IsScientific ↔ place < -4 ∨ 6 ≤ place) := by
  obtain ⟨d, place, t, rounded, least, most, text, _, sign, value, scientific, _⟩ :=
    significant_digits_form 6 true (m := ⟨4696837144107705958, by decide⟩) (by decide)
  exact ⟨by decide +kernel, d, place, t, rounded, least, most, text, sign, value, scientific⟩

end ByteCursor
