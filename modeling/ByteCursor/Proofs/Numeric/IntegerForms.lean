import ByteCursor.Proofs.Numeric.Integers
import Mathlib.Data.Nat.Log

set_option autoImplicit false

namespace ByteCursor

def withoutZeros : Bytes → Bytes
  | b :: d :: ds => if b = '0'.toUInt8 then withoutZeros (d :: ds) else b :: d :: ds
  | ds => ds

theorem digits_digit {b : UInt8} (digit : isDigit b) : digits (b.toNat - 48) = [b] := by
  obtain ⟨least, most⟩ := (isDigit_iff b).mp digit
  obtain ⟨other, same⟩ := digits_of_lt (n := b.toNat - 48) (by omega)
  have written := isDigit_of_mem_digits (n := b.toNat - 48) (b := other) (by simp [same])
  have value := ofDigits_digits (b.toNat - 48)
  rw [same, ofDigits_cons] at value
  rw [isDigit_iff] at written
  have number : other.toNat = b.toNat := by
    simp only [List.length_nil, Nat.pow_zero, Nat.mul_one] at value
    change other.toNat - 48 + 0 = b.toNat - 48 at value
    omega
  rw [same, UInt8.toNat_inj.mp number]

theorem digits_concat {n k : Nat} (positive : 0 < n) (small : k < 10) :
    digits (10 * n + k) = digits n ++ digits k := by
  rw [digits, ← Nat.toDigits_append_toDigits (by decide) positive small, List.map_append]
  rfl

theorem ofDigits_concat (ds : Bytes) (d : UInt8) :
    ofDigits (ds ++ [d]) = 10 * ofDigits ds + (d.toNat - 48) := by
  rw [ofDigits, List.foldl_append]
  rfl

theorem ofDigits_pos {d : UInt8} (digit : isDigit d) (nonzero : d ≠ '0'.toUInt8) (ds : Bytes) :
    0 < ofDigits (d :: ds) := by
  rw [Nat.pos_iff_ne_zero, Ne, ofDigits_eq_zero_iff]
  intro zeros
  have most := zeros d List.mem_cons_self
  have least := ((isDigit_iff d).mp digit).1
  exact nonzero (UInt8.toNat_inj.mp (Nat.le_antisymm most least))

theorem digits_ofDigits {ds : Bytes} (present : ds ≠ []) (all : ∀ b ∈ ds, isDigit b)
    (plain : ds.head? = some '0'.toUInt8 → ds = ['0'.toUInt8]) : digits (ofDigits ds) = ds := by
  -- The last digit is the ones of the number, so digits are taken off the end.
  induction ds using List.reverseRecOn with
  | nil => exact absurd rfl present
  | append_singleton front last ih =>
      obtain ⟨before, here⟩ := List.forall_mem_append.mp all
      have digit := here last (List.mem_singleton_self last)
      rw [ofDigits_concat]
      cases front with
      | nil =>
          have value : 10 * ofDigits [] + (last.toNat - 48) = last.toNat - 48 := Nat.zero_add _
          rw [value, digits_digit digit, List.nil_append]
      | cons first front =>
          have nonzero : first ≠ '0'.toUInt8 := by
            rintro rfl
            simpa using plain rfl
          have positive := ofDigits_pos (before first List.mem_cons_self) nonzero front
          have small : last.toNat - 48 < 10 := by
            have range := (isDigit_iff last).mp digit
            omega
          have earlier := ih (List.cons_ne_nil _ _) before (by simp [nonzero])
          rw [digits_concat positive small, earlier, digits_digit digit]

theorem withoutZeros_spec {ds : Bytes} (present : ds ≠ []) :
    withoutZeros ds ≠ [] ∧ ofDigits (withoutZeros ds) = ofDigits ds ∧ withoutZeros ds ⊆ ds ∧
      ((withoutZeros ds).head? = some '0'.toUInt8 → withoutZeros ds = ['0'.toUInt8]) := by
  induction ds with
  | nil => exact absurd rfl present
  | cons b ds ih =>
      cases ds with
      | nil => simp [withoutZeros]
      | cons d ds =>
          by_cases zero : b = '0'.toUInt8
          · obtain ⟨present, value, listed, plain⟩ := ih (List.cons_ne_nil d ds)
            have same : ofDigits (b :: d :: ds) = ofDigits (d :: ds) := by
              have nothing : '0'.toUInt8.toNat - 48 = 0 := rfl
              rw [ofDigits_cons, zero, nothing, Nat.zero_mul, Nat.zero_add]
            rw [withoutZeros, if_pos zero, same]
            exact ⟨present, value, fun x mem => List.mem_cons_of_mem b (listed mem), plain⟩
          · rw [withoutZeros, if_neg zero]
            simp [zero]

theorem digits_withoutZeros {ds : Bytes} (present : ds ≠ []) (all : ∀ b ∈ ds, isDigit b) :
    digits (ofDigits ds) = withoutZeros ds := by
  obtain ⟨left, value, listed, plain⟩ := withoutZeros_spec present
  rw [← value]
  exact digits_ofDigits left (fun b mem => all b (listed mem)) plain

namespace IntegerText

def ofInt64 (n : Int64) : IntegerText :=
  ⟨if n < 0 then some minusByte else none, ByteCursor.digits n.toInt.natAbs⟩

theorem text_ofInt64 (n : Int64) : (ofInt64 n).text = writeInteger n := by
  unfold ofInt64 writeInteger text
  split <;> simp

theorem ofInt64_wellFormed (n : Int64) : (ofInt64 n).WellFormed := by
  refine ⟨?_, fun b mem => isDigit_of_mem_digits mem, digits_ne_nil _⟩
  unfold ofInt64
  split
  · rintro b ⟨⟩
    decide
  · simp

theorem value_ofInt64 (n : Int64) : (ofInt64 n).value = n.toInt := by
  have sign : n < 0 ↔ n.toInt < 0 := Int64.lt_iff_toInt_lt
  have value : (ofInt64 n).value =
      if n < 0 then -(n.toInt.natAbs : Int) else n.toInt.natAbs := by
    rw [value_eq, ofInt64, ofDigits_digits]
    by_cases negative : n < 0 <;> simp [negative, signed, isMinus]
  rw [value]
  split
  · next negative =>
      have below := sign.mp negative
      omega
  · next other =>
      have above := sign.not.mp other
      omega

theorem isLongest_text {n : IntegerText} (formed : n.WellFormed) : n.IsLongest n.text :=
  ⟨formed, List.prefix_rfl, fun _ _ front => front.length_le⟩

theorem dropWhile_text {n : IntegerText} (formed : n.WellFormed) :
    n.text.dropWhile isSpace = n.text :=
  dropWhile_numeric (isNumeric_text formed)

end IntegerText

theorem readInteger_writeInteger (n : Int64) : readInteger (writeInteger n) = .ok n := by
  have formed := IntegerText.ofInt64_wellFormed n
  have value := IntegerText.value_ofInt64 n
  have behind := IntegerText.dropWhile_text formed
  have longest : (IntegerText.ofInt64 n).IsLongest
      ((IntegerText.ofInt64 n).text.dropWhile isSpace) := by
    rw [behind]
    exact IntegerText.isLongest_text formed
  rw [← IntegerText.text_ofInt64, readInteger_whole longest (by rw [behind]), value,
    if_pos ⟨n.le_toInt, n.toInt_lt⟩, Int64.ofInt_toInt]

theorem readInteger_ok {text : Bytes} {x : Int64} (read : readInteger text = .ok x) :
    ∃ n : IntegerText, n.WellFormed ∧ text.dropWhile isSpace = n.text ∧ x.toInt = n.value := by
  have present : text.dropWhile isSpace ≠ [] := by
    intro empty
    simp [readInteger_empty_iff.mpr empty] at read
  cases scanned : IntegerText.scan? (text.dropWhile isSpace) with
  | none => simp [readInteger_scan present, scanned] at read
  | some n =>
      have longest := IntegerText.scan?_isLongest scanned
      rw [readInteger_longest longest] at read
      split at read
      · cases read
      · next whole =>
          split at read
          · next inside =>
              cases read
              have length := Nat.le_antisymm longest.front.length_le (Nat.le_of_not_lt whole)
              exact ⟨n, longest.formed, (longest.front.eq_of_length length).symm,
                Int64.toInt_ofInt_of_le inside.1 inside.2⟩
          · cases read

-- The magnitude in 64 bits; the least integer has one as well.
def absolute (n : Int64) : UInt64 := if n < 0 then (-n).toUInt64 else n.toUInt64

theorem toNat_absolute (n : Int64) : (absolute n).toNat = n.toInt.natAbs := by
  have bits : n.toInt = if 2 * n.toUInt64.toNat < 2 ^ 64 then (n.toUInt64.toNat : Int)
      else n.toUInt64.toNat - 2 ^ 64 := BitVec.toInt_eq_toNat_cond _
  have bound := n.toUInt64.toNat_lt
  have sign : n < 0 ↔ n.toInt < 0 := Int64.lt_iff_toInt_lt
  unfold absolute
  split
  · next negative =>
      have below := sign.mp negative
      rw [Int64.toUInt64_neg, UInt64.toNat_neg, UInt64.size]
      split at bits <;> omega
  · next other =>
      have above := sign.not.mp other
      split at bits <;> omega

theorem digitCount_eq_log {n : Nat} (positive : n ≠ 0) : digitCount n = Nat.log 10 n + 1 := by
  have count := digitCount_pos n
  have least := ten_pow_le_of_digitCount (Nat.pos_of_ne_zero positive)
  have most := (digitCount_le_iff (n := n) count).mp (Nat.le_refl _)
  have exponent : digitCount n - 1 + 1 = digitCount n := Nat.sub_add_cancel count
  rw [Nat.log_eq_of_pow_le_of_lt_pow least (by rwa [exponent]), exponent]

def widthByLog (n : Int64) : Nat :=
  (if absolute n = 0 then 1 else Nat.log 10 (absolute n).toNat + 1) + if n < 0 then 1 else 0

theorem integerWidth_eq (n : Int64) : integerWidth n = widthByLog n := by
  have zero : absolute n = 0 ↔ n.toInt.natAbs = 0 := by
    rw [← toNat_absolute, ← UInt64.toNat_inj]
    rfl
  unfold integerWidth widthByLog
  rw [toNat_absolute]
  congr 1
  split
  · next nothing => rw [zero.mp nothing]; rfl
  · next positive => exact digitCount_eq_log (zero.not.mp positive)

def plainInteger (text : Bytes) : Bytes :=
  let (sign, ds) := splitSign text
  if isMinus sign && withoutZeros ds != ['0'.toUInt8] then minusByte :: withoutZeros ds
  else withoutZeros ds

theorem plainInteger_text {n : IntegerText} (formed : n.WellFormed) :
    plainInteger n.text =
      if isMinus n.sign && withoutZeros n.digits != ['0'.toUInt8] then
        minusByte :: withoutZeros n.digits
      else withoutZeros n.digits := by
  have split := IntegerText.splitSign_text formed []
  rw [List.append_nil, List.append_nil] at split
  rw [plainInteger, split]

theorem withoutZeros_eq_zero_iff {ds : Bytes} (present : ds ≠ []) (all : ∀ b ∈ ds, isDigit b) :
    withoutZeros ds = ['0'.toUInt8] ↔ ofDigits ds = 0 := by
  constructor
  · intro zero
    rw [← (withoutZeros_spec present).2.1, zero]
    rfl
  · intro zero
    rw [← digits_withoutZeros present all, zero]
    rfl

theorem writeInteger_of_read {text : Bytes} {x : Int64} (read : readInteger text = .ok x) :
    writeInteger x = plainInteger (text.dropWhile isSpace) := by
  obtain ⟨n, formed, same, value⟩ := readInteger_ok read
  rw [IntegerText.value_eq, signed] at value
  have magnitude : x.toInt.natAbs = ofDigits n.digits := by
    split at value <;> omega
  have negative :
      (isMinus n.sign && withoutZeros n.digits != ['0'.toUInt8]) = decide (x < 0) := by
    have zero := withoutZeros_eq_zero_iff formed.present formed.digits
    have below : x < 0 ↔ x.toInt < 0 := Int64.lt_iff_toInt_lt
    rw [Bool.eq_iff_iff, Bool.and_eq_true, bne_iff_ne, Ne, zero, decide_eq_true_eq, below]
    split at value
    · next minus => simp only [minus, true_and]; omega
    · next other => simp only [other, Bool.false_eq_true, false_and, false_iff]; omega
  rw [same, plainInteger_text formed, negative, writeInteger, magnitude,
    digits_withoutZeros formed.present formed.digits]
  simp only [decide_eq_true_eq]

structure IsPlain (n : Int64) (text : Bytes) : Prop where
  digits : ∃ ds, text = (if n < 0 then [minusByte] else []) ++ ds ∧ ds ≠ [] ∧
    (∀ b ∈ ds, isDigit b) ∧ (ds.head? = some '0'.toUInt8 → n = 0 ∧ ds = ['0'.toUInt8])
  plus : plusByte ∉ text
  minus : minusByte ∈ text ↔ n < 0

theorem writeInteger_isPlain (n : Int64) : IsPlain n (writeInteger n) := by
  have same : writeInteger n =
      (if n < 0 then [minusByte] else []) ++ digits n.toInt.natAbs := by
    unfold writeInteger
    split <;> rfl
  have signs : ∀ b ∈ digits n.toInt.natAbs, isSign b = false :=
    fun b mem => isSign_of_isDigit (isDigit_of_mem_digits mem)
  have plus : plusByte ∉ digits n.toInt.natAbs := fun mem => absurd (signs _ mem) (by decide)
  have minus : minusByte ∉ digits n.toInt.natAbs := fun mem => absurd (signs _ mem) (by decide)
  refine ⟨⟨_, same, digits_ne_nil _, fun b mem => isDigit_of_mem_digits mem, fun head => ?_⟩,
    ?_, ?_⟩
  · have nothing : n.toInt.natAbs = 0 := by
      by_contra positive
      exact digits_head (Nat.pos_of_ne_zero positive) head
    refine ⟨Int64.toInt_inj.mp (Int.natAbs_eq_zero.mp nothing), ?_⟩
    rw [nothing]
    rfl
  · rw [same, List.mem_append, not_or]
    refine ⟨?_, plus⟩
    split
    · decide
    · simp
  · rw [same, List.mem_append]
    split
    · next negative => simp [negative]
    · next other => simp [other, minus]

theorem integerText_eq (allocator : Allocator) (n : Int64) :
    let room := (writeInteger n).length
    integerText allocator n =
      if allocator room then .ok (writeInteger n) else .error (.refused ⟨room, 0⟩) := by
  have positive : integerWidth n ≠ 0 := by
    have digits := digitCount_pos n.toInt.natAbs
    unfold integerWidth
    omega
  simp [integerText, Allocator.reserved, Allocator.starts, length_writeInteger, positive]

/-- Every integer is read back from its text, in just the room that the logarithm tells. A text that
is read is that of its integer, but for its leading spaces, a plus, zeros in front of another digit
and the minus of a zero. -/
theorem integers_kept :
    (∀ n : Int64,
      let text := writeInteger n
      readInteger text = .ok n ∧ IsPlain n text ∧
      text.length = integerWidth n ∧ integerWidth n = widthByLog n ∧
      ∀ allocator, integerText allocator n =
        if allocator text.length then .ok text else .error (.refused ⟨text.length, 0⟩)) ∧
    ∀ (text : String) (n : Int64), readInteger (utf8 text) = .ok n →
      writeInteger n = plainInteger (utf8 (withoutLeadingSpace text)) := by
  refine ⟨fun n => ⟨readInteger_writeInteger n, writeInteger_isPlain n, length_writeInteger n,
    integerWidth_eq n, fun allocator => integerText_eq allocator n⟩, fun text n read => ?_⟩
  rw [utf8_withoutLeadingSpace]
  exact writeInteger_of_read read

-- The least integer, with spaces and zeros in front, and a zero with all that can be left out.
theorem integers_kept_least :
    writeInteger (-9223372036854775808) = utf8 "-9223372036854775808" ∧
      integerWidth (-9223372036854775808) = 20 ∧
      readInteger (utf8 "\t -000") = .ok 0 ∧
      plainInteger (utf8 (withoutLeadingSpace "\t -000")) = utf8 "0" := by
  have least : readInteger (utf8 "\n-009223372036854775808") = .ok (-9223372036854775808) := by
    decide
  have zero : readInteger (utf8 "\t -000") = .ok 0 := by decide
  have written := integers_kept.2 _ _ least
  rw [utf8_withoutLeadingSpace] at written
  obtain ⟨_, _, length, _⟩ := integers_kept.1 (-9223372036854775808)
  refine ⟨written.trans (by decide), ?_, zero, (integers_kept.2 _ _ zero).symm.trans (by decide)⟩
  rw [← length, written]
  decide

end ByteCursor
