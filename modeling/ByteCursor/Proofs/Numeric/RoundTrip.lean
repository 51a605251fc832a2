import ByteCursor.Cursor.Scan
import ByteCursor.Proofs.Numeric.Range
import ByteCursor.Proofs.Numeric.Writing

set_option autoImplicit false

namespace ByteCursor

theorem Rank.isNearest_close {q : ℚ} {rank near : Nat} (nearest : IsNearest q near)
    (close : |q - units rank| * 2 ^ 54 < units rank) : near = rank := by
  have above := le_abs_self (q - units rank)
  have below := neg_abs_le (q - units rank)
  obtain ⟨last, rfl⟩ : ∃ last, rank = last + 1 := by
    apply Nat.exists_eq_succ_of_ne_zero
    rintro rfl
    have none : (units 0 : ℚ) = 0 := by exact_mod_cast (by decide : units 0 = 0)
    rw [none] at close
    exact absurd close (not_lt.mpr (by positivity))
  -- Half of either step is at least the rank divided by `2 ^ 54`.
  have room : (units (last + 1) : ℚ) ≤ 2 ^ 53 * 2 ^ scale last := by
    exact_mod_cast units_succ_le last
  have wider := two_pow_scale_le (Nat.le_succ last)
  apply nearest.eq_of_between
  · rw [halfway_above]
    linarith
  · rintro _ ⟨⟩
    rw [halfway_below]
    linarith

theorem Decimal.nearest_of_close {d : Decimal} {m : Magnitude}
    (close : |d.magnitude * unitsPerOne - m.units| * 2 ^ 54 < m.units) :
    d.nearest = .finite d.negative m := by
  have nonzero : d.coefficient ≠ 0 := by
    intro none
    have units : (0 : ℚ) ≤ m.units := Nat.cast_nonneg _
    rw [magnitude, none, Nat.cast_zero, zero_mul, zero_mul, zero_sub, abs_neg,
      abs_of_nonneg units] at close
    linarith
  obtain ⟨rank, nearest, result⟩ := nearest_cases nonzero
  have same : rank = m.rank := Rank.isNearest_close nearest close
  rw [result, same, Binary64.ofRank, dif_pos m.rank_lt]

namespace Significant

def written (wanted : Nat) (negative : Bool) (m : Magnitude) : DecimalText :=
  if m = .zero then .ofPlaced negative 0 0 none
  else (ofMagnitude (clampDigits wanted) m).decimalText negative

theorem text_written (wanted : Nat) (negative : Bool) (m : Magnitude) :
    (written wanted negative m).text = writeSignificant wanted (.finite negative m) := by
  by_cases zero : m = .zero
  · rw [written, writeSignificant, if_pos zero, if_pos zero, DecimalText.text_ofPlaced]
    rfl
  · have some : 0 < clampDigits wanted := Nat.le_max_left _ _
    rw [written, writeSignificant, if_neg zero, if_neg zero, text_decimalText negative some]

theorem written_wellFormed (wanted : Nat) (negative : Bool) (m : Magnitude) :
    (written wanted negative m).WellFormed := by
  unfold written
  split
  · exact DecimalText.ofPlaced_wellFormed ..
  · exact DecimalText.ofPlaced_wellFormed ..

theorem precision_ofMagnitude (precision : Nat) (m : Magnitude) :
    (ofMagnitude precision m).precision = precision := by
  unfold ofMagnitude
  split <;> rfl

theorem nearest_written {wanted : Nat} (enough : 17 ≤ wanted) (negative : Bool) (m : Magnitude) :
    (written wanted negative m).value.nearest = .finite negative m := by
  by_cases zero : m = .zero
  · rw [written, if_pos zero, DecimalText.value_ofPlaced, zero]
    rfl
  · have clamped : clampDigits wanted = 17 := by
      unfold clampDigits maxSignificantDigits
      omega
    have close := ofMagnitude_close (by decide : 0 < 17) zero
    have units : (0 : ℚ) < m.units := by exact_mod_cast units_pos zero
    have magnitude := magnitude_decimalText negative (s := ofMagnitude 17 m)
      (by rw [precision_ofMagnitude]; decide)
    rw [written, if_neg zero, clamped]
    conv => rhs; rw [← decimalText_negative negative (ofMagnitude 17 m)]
    apply Decimal.nearest_of_close
    rw [magnitude]
    linarith

theorem inRange_written {wanted : Nat} (enough : 17 ≤ wanted) (negative : Bool) (m : Magnitude) :
    (Numeral.decimal (written wanted negative m)).inRange = !m.isSubnormal := by
  have digits := DecimalText.hasNonzeroDigit_iff (written_wellFormed wanted negative m)
  simp only [Numeral.inRange, nearest_written enough, Binary64.isInfinite, Binary64.isSubnormal,
    Binary64.isZero, Bool.false_or]
  by_cases zero : m = .zero
  · have none : (written wanted negative m).value.coefficient = 0 := by
      rw [written, if_pos zero, DecimalText.value_ofPlaced]
    have plain : (written wanted negative m).hasNonzeroDigit = false := by simpa [none] using digits
    rw [plain, Bool.and_false, Bool.or_false]
  · simp [zero]

end Significant

theorem readNumber_written {wanted : Nat} (enough : 17 ≤ wanted) (negative : Bool)
    (m : Magnitude) : readNumber (writeSignificant wanted (.finite negative m)) =
      if m.isSubnormal then .error .outOfRange else .ok (.finite negative m) := by
  have formed := Significant.written_wellFormed wanted negative m
  have body : (writeSignificant wanted (.finite negative m)).dropWhile isSpace =
      (Significant.written wanted negative m).text := by
    rw [← Significant.text_written]
    exact DecimalText.dropWhile_text formed
  rw [readNumber_decimal formed body, Significant.inRange_written enough,
    Significant.nearest_written enough]
  cases m.isSubnormal <;> rfl

theorem number_before {d : DecimalText} (formed : d.WellFormed) {rest : Bytes}
    (stops : ∀ b ∈ rest.head?, isNumeric b = false) :
    Scan.number (d.text ++ rest) = some (d.value.nearest, d.text.length - 1) := by
  have run := takeWhile_before (DecimalText.numeric_text formed) stops
  have scanned := Numeral.scan?_decimalText formed
  have present := DecimalText.text_ne_nil formed
  simp [Scan.number, Scan.numericRun, run, present, frontNumber, scanned, Numeral.value]

theorem number_written {wanted : Nat} (enough : 17 ≤ wanted) (negative : Bool) (m : Magnitude)
    (rest : Bytes) (stops : ∀ b ∈ rest.head?, isNumeric b = false) :
    Scan.number (writeSignificant wanted (.finite negative m) ++ rest) =
      some (.finite negative m, (writeSignificant wanted (.finite negative m)).length - 1) := by
  rw [← Significant.text_written,
    number_before (Significant.written_wellFormed wanted negative m) stops,
    Significant.nearest_written enough]

/-- Reading gives back every number but the subnormal ones, which it refuses; a cursor gives back
every finite number. -/
theorem seventeen_digits_identify {wanted : Nat} (enough : 17 ≤ wanted) (x : Binary64) :
    readNumber (writeSignificant wanted x) =
        (if x.isSubnormal then .error .outOfRange else .ok x) ∧
      ∀ negative m, x = .finite negative m →
        ∃ c, Cursor.ofText (writeSignificant wanted x) = .ok c ∧
          c.takeNumber =
            (some x, { c with position := (writeSignificant wanted x).length - 1 }) := by
  constructor
  · cases x with
    | nan => rfl
    | infinite negative => cases negative <;> rfl
    | finite negative m => exact readNumber_written enough negative m
  · rintro negative m rfl
    have taken := number_written enough negative m [] (by simp)
    have present : writeSignificant wanted (.finite negative m) ≠ [] := by
      rw [← Significant.text_written]
      exact DecimalText.text_ne_nil (Significant.written_wellFormed wanted negative m)
    generalize writeSignificant wanted (.finite negative m) = text at *
    rw [List.append_nil] at taken
    refine ⟨⟨text, 0, 0, { initialCapacity := .ofNat text.length }⟩, ?_, ?_⟩
    · rw [Cursor.ofText, if_neg (by simpa using present)]
    · simp only [Cursor.takeNumber, Cursor.scan, Cursor.rest, List.drop_zero, taken,
        Cursor.moved, Nat.zero_add]

theorem seventeen_digits_identify_smallest :
    readNumber (writeSignificant 20 (.finite false ⟨1, by decide⟩)) = .error .outOfRange ∧
      ∃ c, Cursor.ofText (writeSignificant 20 (.finite false ⟨1, by decide⟩)) = .ok c ∧
        c.takeNumber.1 = some (.finite false ⟨1, by decide⟩) := by
  obtain ⟨read, taken⟩ := seventeen_digits_identify (by decide : 17 ≤ 20)
    (.finite false ⟨1, by decide⟩)
  obtain ⟨c, new, result⟩ := taken false ⟨1, by decide⟩ rfl
  exact ⟨read, c, new, congrArg Prod.fst result⟩

end ByteCursor
