import ByteCursor.Proofs.Numeric.Digits
import ByteCursor.Proofs.Numeric.Grammar
import ByteCursor.Proofs.Numeric.Nearest

set_option autoImplicit false

namespace ByteCursor

def OutOfRange (q : ℚ) : Prop :=
  q ≠ 0 ∧ (2 ^ 1024 - 2 ^ 970 ≤ |q| ∨ |q| < 2 ^ (-1022 : ℤ) - 2 ^ (-1075 : ℤ))

namespace DecimalText

def power (d : DecimalText) : Int := (d.exponent.map ExponentText.value).getD 0

def exact (d : DecimalText) : ℚ :=
  signFactor (isMinus d.sign) *
    (ofDigits d.whole + ofDigits d.places / 10 ^ d.places.length) * 10 ^ d.power

theorem exact_eq (d : DecimalText) : d.exact = d.value.exact := by
  have shift : (10 : ℚ) ^ (d.power - d.places.length) = 10 ^ d.power / 10 ^ d.places.length := by
    rw [zpow_sub₀ (by norm_num), zpow_natCast]
  have scaled : (10 : ℚ) ^ d.places.length ≠ 0 := by positivity
  change _ = signFactor (isMinus d.sign) *
    ((ofDigits (d.whole ++ d.places) : ℚ) * 10 ^ (d.power - d.places.length))
  rw [exact, shift, ofDigits_append]
  push_cast
  field_simp

variable {d : DecimalText}

def mantissa (d : DecimalText) : Bytes := d.sign.toList ++ d.whole ++ fractionText d.fraction

theorem mem_mantissa {b : UInt8} (present : b ∈ d.whole ++ d.places) : b ∈ d.mantissa := by
  rcases List.mem_append.mp present with whole | place
  · simp [mantissa, whole]
  · cases written : d.fraction with
    | none => simp [places, written] at place
    | some ds =>
        have inside : b ∈ ds := by simpa [places, written] using place
        simp [mantissa, written, fractionText, inside]

theorem mantissa_cases (formed : d.WellFormed) {b : UInt8} (present : b ∈ d.mantissa) :
    isSign b ∨ b = pointByte ∨ b ∈ d.whole ++ d.places := by
  rcases List.mem_append.mp present with front | fraction
  · rcases List.mem_append.mp front with sign | whole
    · exact .inl (formed.sign b (Option.mem_toList.mp sign))
    · exact .inr (.inr (List.mem_append_left _ whole))
  · cases written : d.fraction with
    | none => simp [written, fractionText] at fraction
    | some ds =>
        simp only [written, fractionText, Option.map_some, Option.getD_some,
          List.mem_cons] at fraction
        exact .inr (fraction.imp_right fun place => by simp [places, written, place])

theorem isDigit_of_mem (formed : d.WellFormed) {b : UInt8} (present : b ∈ d.whole ++ d.places) :
    isDigit b :=
  (List.mem_append.mp present).elim (formed.whole b) (formed.places b)

theorem before_exponent (formed : d.WellFormed) :
    d.text.takeWhile (fun b => !isExponentMarker b) = d.mantissa := by
  rw [show d.text = d.mantissa ++ (d.exponent.map ExponentText.text).getD [] from rfl]
  apply takeWhile_before
  · intro b present
    rw [Bool.not_eq_true', Bool.eq_false_iff]
    intro marker
    have letter := (isExponentMarker_iff b).mp marker
    rcases mantissa_cases formed present with sign | rfl | digit
    · rcases (isSign_iff b).mp sign with rfl | rfl <;> revert letter <;> decide
    · revert letter
      decide
    · have outside := isDigit_of_isExponentMarker marker
      rw [isDigit_of_mem formed digit] at outside
      exact absurd outside (by decide)
  · intro b head
    rw [exponent_head formed b head]
    rfl

theorem nonzeroDigit_iff (b : UInt8) :
    ('1'.toUInt8 ≤ b && b ≤ '9'.toUInt8) = true ↔ 49 ≤ b.toNat ∧ b.toNat ≤ 57 := by
  simp only [Bool.and_eq_true, decide_eq_true_eq, UInt8.le_iff_toNat_le]
  rfl

theorem hasNonzeroDigit_iff (formed : d.WellFormed) :
    d.hasNonzeroDigit ↔ d.value.coefficient ≠ 0 := by
  rw [hasNonzeroDigit, before_exponent formed, List.any_eq_true, value, ne_eq,
    ofDigits_eq_zero_iff, not_forall]
  constructor
  · rintro ⟨b, present, other⟩
    rw [nonzeroDigit_iff] at other
    refine ⟨b, fun zero => ?_⟩
    rcases mantissa_cases formed present with sign | rfl | digit
    · rcases (isSign_iff b).mp sign with rfl | rfl <;> revert other <;> decide
    · revert other
      decide
    · have small := zero digit
      omega
  · rintro ⟨b, other⟩
    obtain ⟨digit, large⟩ := Classical.not_imp.mp other
    have bounds := (isDigit_iff b).mp (isDigit_of_mem formed digit)
    refine ⟨b, mem_mantissa digit, ?_⟩
    rw [nonzeroDigit_iff]
    omega

end DecimalText

variable {d : DecimalText} {text : Bytes}

theorem inRange_iff (formed : d.WellFormed) :
    (Numeral.decimal d).inRange ↔ ¬ OutOfRange d.exact := by
  have written := DecimalText.hasNonzeroDigit_iff formed
  rw [OutOfRange, d.exact_eq, ne_eq, Decimal.exact_eq_zero_iff]
  simp only [Numeral.inRange]
  by_cases zero : d.value.coefficient = 0
  · have none : d.hasNonzeroDigit = false := by simpa [zero] using written
    simp [zero, none, Decimal.nearest, Binary64.zero, Binary64.isInfinite, Binary64.isSubnormal,
      Magnitude.isSubnormal, Magnitude.zero]
  · have some : d.hasNonzeroDigit = true := written.mpr zero
    have normal := Decimal.nearest_normal_iff zero
    rw [some, Bool.and_true, Bool.not_eq_true', normal]
    simp only [zero, not_false_eq_true, true_and, not_or, not_le, not_lt]
    exact and_comm

theorem value_of_not_inRange {n : Numeral} (formed : n.WellFormed) (outside : n.inRange = false) :
    n.value = .infinite (isMinus n.text.head?) ∨
      ∃ m, n.value = .finite (isMinus n.text.head?) m ∧ (m = .zero ∨ m.isSubnormal) := by
  cases n with
  | word => cases outside
  | decimal d =>
      obtain ⟨rank, _, nearest⟩ := d.value.nearest_rank
      have sign : d.value.negative = isMinus d.text.head? := (d.isMinus_head formed).symm
      simp only [Numeral.inRange, Bool.not_eq_false', Bool.or_eq_true] at outside
      simp only [Numeral.value, Numeral.text, nearest, sign] at outside ⊢
      by_cases finite : rank < 2047 * 2 ^ 52
      · rw [Binary64.ofRank, dif_pos finite] at outside ⊢
        refine .inr ⟨_, rfl, ?_⟩
        rcases outside with (infinite | subnormal) | zero
        · cases infinite
        · exact .inr subnormal
        · exact .inl (beq_iff_eq.mp (Bool.and_eq_true_iff.mp zero).1)
      · rw [Binary64.ofRank, dif_neg finite]
        exact .inl rfl

theorem readNumber_decimal (formed : d.WellFormed) (body : text.dropWhile isSpace = d.text) :
    readNumber text =
      if (Numeral.decimal d).inRange then .ok d.value.nearest else .error .outOfRange := by
  have scanned := Numeral.scan?_decimalText formed
  have present := DecimalText.text_ne_nil formed
  simp [readNumber, body, scanned, present, Numeral.text, Numeral.value]

theorem readNumber_normal {y : Binary64} (formed : d.WellFormed)
    (body : text.dropWhile isSpace = d.text) (positive : 0 < d.value.magnitude)
    (read : readNumber text = .ok y) :
    ∃ m, y = .finite d.value.negative m ∧ 2 ^ 52 ≤ m.rank ∧
      Rank.IsNearest (d.value.magnitude * unitsPerOne) m.rank := by
  have nonzero : d.value.coefficient ≠ 0 := by
    intro none
    rw [Decimal.magnitude, none, Nat.cast_zero, zero_mul] at positive
    exact positive.false
  have digit : d.hasNonzeroDigit = true := (DecimalText.hasNonzeroDigit_iff formed).mpr nonzero
  obtain ⟨rank, nearest, result⟩ := Decimal.nearest_cases nonzero
  rw [readNumber_decimal formed body] at read
  split at read
  · next inside =>
      cases read
      rw [Numeral.inRange, digit, Bool.and_true, Bool.not_eq_true', result,
        Binary64.ofRank_normal_iff] at inside
      exact ⟨⟨rank, inside.2⟩, by rw [result, Binary64.ofRank, dif_pos inside.2], inside.1, nearest⟩
  · cases read

/-- A decimal is refused exactly if its value lies outside the thresholds. -/
theorem readNumber_range (formed : d.WellFormed) (body : text.dropWhile isSpace = d.text) :
    (readNumber text = .error .outOfRange ↔ OutOfRange d.exact) ∧
      (¬ OutOfRange d.exact → ∃ x, readNumber text = .ok x ∧ x.IsNearest d.exact ∧
        (d.exact = 0 → x = .zero (isMinus d.sign))) := by
  have range := inRange_iff formed
  rw [readNumber_decimal formed body]
  constructor
  · by_cases inside : (Numeral.decimal d).inRange
    · simpa [inside] using range.mp inside
    · simpa [inside] using range
  · intro inside
    rw [if_pos (range.mpr inside)]
    refine ⟨_, rfl, ?_⟩
    rw [OutOfRange, d.exact_eq] at inside
    rw [d.exact_eq]
    by_cases zero : d.value.coefficient = 0
    · have none := (Decimal.exact_eq_zero_iff d.value).mpr zero
      have signed : d.value.nearest = .zero (isMinus d.sign) := by
        rw [Decimal.nearest, if_pos zero]
        rfl
      rw [signed, none]
      exact ⟨Decimal.zero_isNearest _, fun _ => rfl⟩
    · have nonzero := (Decimal.exact_eq_zero_iff d.value).not.mpr zero
      have small : |d.value.exact| < 2 ^ 1024 - 2 ^ 970 := by
        by_contra large
        exact inside ⟨nonzero, .inl (not_lt.mp large)⟩
      exact ⟨Decimal.nearest_isNearest zero small, fun none => absurd none nonzero⟩

-- ` -.0e-400`
theorem readNumber_range_signed_zero :
    readNumber (utf8 " -.0e-400") = .ok (.zero true) := by
  let e : ExponentText := ⟨'e'.toUInt8, some minusByte, utf8 "400"⟩
  let d : DecimalText := ⟨some minusByte, [], some (utf8 "0"), some e⟩
  have minus : ∀ b ∈ some minusByte, isSign b := by
    rintro _ ⟨⟩
    decide
  have exponent : e.WellFormed :=
    ⟨by decide, minus, fun b => List.all_eq_true.mp (by decide) b, by decide⟩
  have formed : d.WellFormed := by
    refine ⟨minus, fun b => List.all_eq_true.mp (by decide) b,
      fun b => List.all_eq_true.mp (by decide) b, by decide, ?_⟩
    rintro _ ⟨⟩
    exact exponent
  have zero : d.exact = 0 := by
    have digits : ofDigits d.whole = 0 ∧ ofDigits d.places = 0 := by decide
    simp [DecimalText.exact, digits]
  have inside : ¬ OutOfRange d.exact := fun outside => outside.1 zero
  have body : (utf8 " -.0e-400").dropWhile isSpace = d.text := by decide
  obtain ⟨x, read, _, signed⟩ := (readNumber_range formed body).2 inside
  rw [read, signed zero]
  rfl

end ByteCursor
