import ByteCursor.Bytes

set_option autoImplicit false

namespace ByteCursor

attribute [local instance] power

def digits (n : Nat) : Bytes := (Nat.toDigits 10 n).map Char.toUInt8

def digitCount (n : Nat) : Nat := (Nat.toDigits 10 n).length

@[simp] theorem length_digits (n : Nat) : (digits n).length = digitCount n := by
  simp [digits, digitCount]

def ofDigits (ds : Bytes) : Nat := ds.foldl (fun n d => 10 * n + (d.toNat - '0'.toNat)) 0

theorem toNat_toUInt8 {c : Char} (digit : c.isDigit) : c.toUInt8.toNat = c.toNat := by
  simp only [Char.isDigit, Bool.and_eq_true, decide_eq_true_eq, UInt32.le_iff_toNat_le] at digit
  have upper : c.val.toNat ≤ 57 := digit.2
  simp only [Char.toUInt8, UInt32.toNat_toUInt8, Char.toNat]
  omega

theorem isDigit_of_mem_digits {n : Nat} {b : UInt8} (present : b ∈ digits n) : isDigit b := by
  obtain ⟨c, mem, rfl⟩ := List.mem_map.mp present
  have digit := Nat.isDigit_of_mem_toDigits (by decide) (by decide) mem
  have same := toNat_toUInt8 digit
  simp only [Char.isDigit, Bool.and_eq_true, decide_eq_true_eq, UInt32.le_iff_toNat_le] at digit
  simp only [isDigit, Bool.and_eq_true, decide_eq_true_eq, UInt8.le_iff_toNat_le, same]
  exact digit

theorem foldl_digits (cs : List Char) (start : Nat) (chars : ∀ c ∈ cs, c.isDigit) :
    (cs.map Char.toUInt8).foldl (fun n d => 10 * n + (d.toNat - '0'.toNat)) start =
      Nat.ofDigitChars 10 cs start := by
  induction cs generalizing start with
  | nil => rfl
  | cons c cs ih =>
      simp only [List.map_cons, List.foldl_cons, Nat.ofDigitChars_cons,
        toNat_toUInt8 (chars c (by simp))]
      exact ih _ fun d mem => chars d (by simp [mem])

@[simp] theorem ofDigits_digits (n : Nat) : ofDigits (digits n) = n := by
  rw [ofDigits, digits, foldl_digits _ _ fun c mem =>
    Nat.isDigit_of_mem_toDigits (by decide) (by decide) mem]
  exact Nat.ofDigitChars_ten_toDigits

def lastDigits : Nat → Nat → Bytes
  | 0, _ => []
  | count + 1, n => lastDigits count (n / 10) ++ digits (n % 10)

@[simp] theorem length_lastDigits (count n : Nat) : (lastDigits count n).length = count := by
  induction count generalizing n with
  | zero => rfl
  | succ count ih =>
      have one : digitCount (n % 10) = 1 := by
        rw [digitCount, Nat.toDigits_of_lt_base (Nat.mod_lt n (by decide))]
        rfl
      simp [lastDigits, ih, one]

def placed (places n : Nat) : Bytes :=
  if places = 0 then digits n
  else digits (n / 10 ^ places) ++ pointByte :: lastDigits places (n % 10 ^ places)

-- The same number with no final zero among its places: the places left and the new numerator.
def stripZeros : Nat → Nat → Nat × Nat
  | 0, n => (0, n)
  | places + 1, n => if n % 10 = 0 then stripZeros places (n / 10) else (places + 1, n)

def trimmed (places n : Nat) : Bytes :=
  placed (stripZeros places n).1 (stripZeros places n).2

end ByteCursor
