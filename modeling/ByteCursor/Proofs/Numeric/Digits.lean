import ByteCursor.Numeric.Digits
import Mathlib.Data.Nat.Basic
import Mathlib.Tactic.Ring

set_option autoImplicit false

namespace ByteCursor

theorem foldl_ofDigits (ds : Bytes) (start : Nat) :
    ds.foldl (fun n d => 10 * n + (d.toNat - '0'.toNat)) start =
      start * 10 ^ ds.length + ofDigits ds := by
  induction ds generalizing start with
  | nil => simp [ofDigits]
  | cons d ds ih =>
      have value : ofDigits (d :: ds) =
          (10 * 0 + (d.toNat - '0'.toNat)) * 10 ^ ds.length + ofDigits ds := ih _
      rw [List.foldl_cons, ih, value, List.length_cons]
      ring

theorem ofDigits_append (front back : Bytes) :
    ofDigits (front ++ back) = ofDigits front * 10 ^ back.length + ofDigits back := by
  rw [ofDigits, List.foldl_append, foldl_ofDigits]
  rfl

theorem ofDigits_cons (d : UInt8) (ds : Bytes) :
    ofDigits (d :: ds) = (d.toNat - 48) * 10 ^ ds.length + ofDigits ds := by
  rw [ofDigits, List.foldl_cons, foldl_ofDigits]
  simp

theorem ofDigits_eq_zero_iff (ds : Bytes) : ofDigits ds = 0 ↔ ∀ b ∈ ds, b.toNat ≤ 48 := by
  induction ds with
  | nil => simp [ofDigits]
  | cons d ds ih =>
      have power : 10 ^ ds.length ≠ 0 := Nat.pos_iff_ne_zero.mp (Nat.pow_pos (by decide))
      rw [ofDigits_cons, Nat.add_eq_zero_iff, ih, Nat.mul_eq_zero, List.forall_mem_cons]
      simp only [power, or_false, Nat.sub_eq_zero_iff_le]

theorem ofDigits_lt {ds : Bytes} (digits : ∀ b ∈ ds, b.toNat ≤ 57) :
    ofDigits ds < 10 ^ ds.length := by
  induction ds with
  | nil => decide
  | cons d ds ih =>
      obtain ⟨first, others⟩ := List.forall_mem_cons.mp digits
      have rest := ih others
      have most : (d.toNat - 48) * 10 ^ ds.length ≤ 9 * 10 ^ ds.length :=
        Nat.mul_le_mul_right _ (by omega)
      rw [ofDigits_cons, List.length_cons, Nat.pow_succ]
      omega

theorem digits_ne_nil (n : Nat) : digits n ≠ [] := by
  simp [digits, Nat.toDigits_ne_nil]

theorem digitCount_pos (n : Nat) : 0 < digitCount n := Nat.length_toDigits_pos

theorem digitCount_le_iff {n k : Nat} (positive : 0 < k) : digitCount n ≤ k ↔ n < 10 ^ k :=
  Nat.length_toDigits_le_iff (by decide) positive

theorem digitCount_of_lt {n : Nat} (small : n < 10) : digitCount n = 1 :=
  Nat.le_antisymm ((digitCount_le_iff one_pos).mpr small) (digitCount_pos n)

theorem digitCount_div_le {n count : Nat} (few : n < 10 ^ count) (places : Nat) :
    digitCount (n / 10 ^ places) ≤ max 1 (count - places) := by
  rw [digitCount_le_iff (by omega), Nat.div_lt_iff_lt_mul (Nat.pow_pos (by decide)), ← Nat.pow_add]
  exact Nat.lt_of_lt_of_le few (Nat.pow_le_pow_right (by decide) (by omega))

theorem digits_of_lt {n : Nat} (small : n < 10) : ∃ b, digits n = [b] := by
  have count := digitCount_of_lt small
  rw [← length_digits] at count
  exact List.length_eq_one_iff.mp count

theorem ten_pow_le_of_digitCount {n : Nat} (positive : 0 < n) : 10 ^ (digitCount n - 1) ≤ n := by
  by_cases one : digitCount n = 1
  · rw [one]
    exact positive
  · have count := digitCount_pos n
    have fewer := (digitCount_le_iff (n := n) (k := digitCount n - 1) (by omega)).not
    omega

theorem digits_head {n : Nat} (positive : 0 < n) : (digits n).head? ≠ some '0'.toUInt8 := by
  intro head
  obtain ⟨ds, same⟩ := List.head?_eq_some_iff.mp head
  have count : digitCount n = ds.length + 1 := by rw [← length_digits, same, List.length_cons]
  have least := ten_pow_le_of_digitCount positive
  -- With a zero in front the number is smaller than its count of digits tells.
  have most : n < 10 ^ ds.length := by
    calc n = ofDigits ('0'.toUInt8 :: ds) := by rw [← same, ofDigits_digits]
      _ = ofDigits ds := by
        have zero : '0'.toUInt8.toNat - 48 = 0 := rfl
        rw [ofDigits_cons, zero, Nat.zero_mul, Nat.zero_add]
      _ < 10 ^ ds.length := by
        apply ofDigits_lt
        intro b mem
        have digit := isDigit_of_mem_digits (n := n) (b := b) (by simp [same, mem])
        simp only [isDigit, Bool.and_eq_true, decide_eq_true_eq, UInt8.le_iff_toNat_le] at digit
        exact digit.2
  rw [count, Nat.add_sub_cancel] at least
  omega

theorem ten_pow_digitCount_div {n unit : Nat} (positive : 0 < unit) (large : unit ≤ n) :
    unit * 10 ^ (digitCount (n / unit) - 1) ≤ n := by
  have first := ten_pow_le_of_digitCount (Nat.div_pos large positive)
  rw [Nat.le_div_iff_mul_le positive, Nat.mul_comm] at first
  exact first

theorem lt_ten_pow_digitCount_div {n unit : Nat} (positive : 0 < unit) :
    n < unit * 10 ^ digitCount (n / unit) := by
  have upper := (digitCount_le_iff (digitCount_pos (n / unit))).mp (Nat.le_refl _)
  rwa [Nat.div_lt_iff_lt_mul positive, Nat.mul_comm] at upper

theorem ofDigits_lastDigits (count n : Nat) : ofDigits (lastDigits count n) = n % 10 ^ count := by
  induction count generalizing n with
  | zero => simp [lastDigits, ofDigits, Nat.mod_one]
  | succ count ih =>
      have one := digitCount_of_lt (Nat.mod_lt n (by decide : 10 > 0))
      rw [lastDigits, ofDigits_append, ih, ofDigits_digits, length_digits, one, Nat.pow_one,
        Nat.pow_succ', Nat.mod_mul]
      omega

theorem isDigit_of_mem_lastDigits {count n : Nat} {b : UInt8} (present : b ∈ lastDigits count n) :
    isDigit b := by
  induction count generalizing n with
  | zero => cases present
  | succ count ih =>
      rcases List.mem_append.mp present with earlier | last
      · exact ih earlier
      · exact isDigit_of_mem_digits last

theorem getLast?_lastDigits {places n : Nat} (some : places ≠ 0) (nonzero : n % 10 ≠ 0) :
    (lastDigits places n).getLast? ≠ .some '0'.toUInt8 := by
  obtain ⟨fewer, rfl⟩ := Nat.exists_eq_succ_of_ne_zero some
  obtain ⟨b, same⟩ := digits_of_lt (Nat.mod_lt n (by decide))
  have head := digits_head (Nat.pos_of_ne_zero nonzero)
  rw [same] at head
  simpa [lastDigits, same] using head

theorem ofDigits_placed (places n : Nat) :
    ofDigits (digits (n / 10 ^ places) ++ lastDigits places (n % 10 ^ places)) = n := by
  rw [ofDigits_append, ofDigits_digits, ofDigits_lastDigits, length_lastDigits, Nat.mod_mod,
    Nat.div_add_mod']

theorem length_placed_le (places n : Nat) :
    (placed places n).length ≤ digitCount (n / 10 ^ places) + 1 + places := by
  unfold placed
  split
  · next none => simp [none]
  · simp [Nat.add_assoc, Nat.add_comm 1 places]

theorem stripZeros_spec (places n : Nat) :
    (stripZeros places n).1 ≤ places ∧
      (stripZeros places n).2 * 10 ^ (places - (stripZeros places n).1) = n := by
  induction places generalizing n with
  | zero => simp [stripZeros]
  | succ places ih =>
      rw [stripZeros]
      split
      · next zero =>
          obtain ⟨fewer, same⟩ := ih (n / 10)
          have more : places + 1 - (stripZeros places (n / 10)).1 =
              places - (stripZeros places (n / 10)).1 + 1 := by omega
          refine ⟨by omega, ?_⟩
          rw [more, Nat.pow_succ, ← Nat.mul_assoc, same]
          omega
      · simp

theorem stripZeros_div (places n : Nat) :
    (stripZeros places n).2 / 10 ^ (stripZeros places n).1 = n / 10 ^ places := by
  obtain ⟨fewer, same⟩ := stripZeros_spec places n
  have power : 10 ^ places =
      10 ^ (stripZeros places n).1 * 10 ^ (places - (stripZeros places n).1) := by
    rw [← Nat.pow_add, Nat.add_sub_cancel' fewer]
  conv => rhs; rw [← same, power]
  rw [Nat.mul_div_mul_right _ _ (Nat.pow_pos (by decide))]

theorem stripZeros_last {places n : Nat} (left : (stripZeros places n).1 ≠ 0) :
    (stripZeros places n).2 % 10 ≠ 0 := by
  induction places generalizing n with
  | zero => exact absurd rfl left
  | succ places ih =>
      by_cases zero : n % 10 = 0
      · simp only [stripZeros, zero, if_true] at left ⊢
        exact ih left
      · rw [stripZeros, if_neg zero]
        exact zero

theorem length_trimmed_le (places n : Nat) :
    (trimmed places n).length ≤ digitCount (n / 10 ^ places) + 1 + places := by
  have fewer := (stripZeros_spec places n).1
  have length := length_placed_le (stripZeros places n).1 (stripZeros places n).2
  rw [stripZeros_div] at length
  exact length.trans (Nat.add_le_add_left fewer _)

end ByteCursor
