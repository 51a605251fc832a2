import ByteCursor.Numeric.Integer
import ByteCursor.Proofs.Numeric.Classification
import ByteCursor.Proofs.Numeric.Digits
import Mathlib.Data.Nat.Digits.Lemmas

set_option autoImplicit false

namespace ByteCursor

structure IntegerText where
  sign : Option UInt8
  digits : Bytes
  deriving Repr, DecidableEq

namespace IntegerText

def text (n : IntegerText) : Bytes := n.sign.toList ++ n.digits

structure WellFormed (n : IntegerText) : Prop where
  sign : ∀ b ∈ n.sign, isSign b
  digits : ∀ b ∈ n.digits, isDigit b
  present : n.digits ≠ []

def magnitude (n : IntegerText) : Nat :=
  Nat.ofDigits 10 (n.digits.reverse.map fun b => b.toNat - 48)

def value (n : IntegerText) : Int :=
  if n.sign = some minusByte then -n.magnitude else n.magnitude

def scan? (bs : Bytes) : Option IntegerText :=
  let (sign, body) := splitSign bs
  let ds := body.takeWhile isDigit
  if ds.isEmpty then none else some ⟨sign, ds⟩

variable {n : IntegerText} {bs : Bytes}

theorem text_prefix (scanned : scan? bs = some n) : n.text <+: bs := by
  simp only [scan?, Option.ite_none_left_eq_some, Option.some.injEq] at scanned
  obtain ⟨_, rfl⟩ := scanned
  refine ⟨(splitSign bs).2.dropWhile isDigit, ?_⟩
  rw [text, List.append_assoc, List.takeWhile_append_dropWhile, splitSign_append]

theorem scan?_wellFormed (scanned : scan? bs = some n) : n.WellFormed := by
  simp only [scan?, Option.ite_none_left_eq_some, Option.some.injEq] at scanned
  obtain ⟨present, rfl⟩ := scanned
  exact ⟨splitSign_sign bs, fun b mem => mem_takeWhile mem, by simpa using present⟩

theorem splitSign_text (formed : n.WellFormed) (rest : Bytes) :
    splitSign (n.text ++ rest) = (n.sign, n.digits ++ rest) := by
  have stops : ∀ b ∈ (n.digits ++ rest).head?, isSign b = false := by
    obtain ⟨d, ds, same⟩ := List.exists_cons_of_ne_nil formed.present
    rw [same]
    rintro b ⟨⟩
    exact isSign_of_isDigit (formed.digits d (by simp [same]))
  rw [text, List.append_assoc, splitSign_before formed.sign stops]

theorem scan?_append (formed : n.WellFormed) (rest : Bytes) :
    scan? (n.text ++ rest) = some { n with digits := n.digits ++ rest.takeWhile isDigit } := by
  have run : (n.digits ++ rest).takeWhile isDigit = n.digits ++ rest.takeWhile isDigit :=
    List.takeWhile_append_of_pos formed.digits
  simp [scan?, splitSign_text formed rest, run, formed.present]

theorem scan?_text (formed : n.WellFormed) : scan? n.text = some n := by
  simpa using scan?_append formed []

theorem scan?_before (formed : n.WellFormed) (rest : Bytes) :
    ∃ longer, scan? (n.text ++ rest) = some longer ∧ n.text.length ≤ longer.text.length := by
  refine ⟨_, scan?_append formed rest, ?_⟩
  simp only [text, List.length_append]
  omega

theorem scan?_isGreedy : IsGreedy scan? text WellFormed where
  starts := text_prefix
  well := scan?_wellFormed
  whole := scan?_text
  before := scan?_before

structure IsLongest (n : IntegerText) (bs : Bytes) : Prop where
  formed : n.WellFormed
  front : n.text <+: bs
  longest : ∀ other : IntegerText, other.WellFormed → other.text <+: bs →
    other.text.length ≤ n.text.length

theorem scan?_isLongest (scanned : scan? bs = some n) : n.IsLongest bs :=
  ⟨scan?_wellFormed scanned, text_prefix scanned, fun _ => scan?_isGreedy.longest scanned⟩

theorem IsLongest.scan? (longest : n.IsLongest bs) : scan? bs = some n :=
  scan?_isGreedy.scan_eq longest.formed longest.front longest.longest

theorem scan?_eq_none_iff :
    scan? bs = none ↔ ∀ n : IntegerText, n.WellFormed → ¬ n.text <+: bs :=
  scan?_isGreedy.eq_none_iff

theorem isNumeric_text (formed : n.WellFormed) : ∀ b ∈ n.text, isNumeric b := by
  intro b mem
  rw [isNumeric_iff]
  rcases List.mem_append.mp mem with sign | digit
  · exact .inr (.inl (formed.sign b (by simpa using sign)))
  · exact .inl (formed.digits b digit)

theorem magnitude_eq (n : IntegerText) : n.magnitude = ofDigits n.digits := by
  unfold magnitude
  induction n.digits with
  | nil => rfl
  | cons d ds ih =>
      rw [List.reverse_cons, List.map_append, Nat.ofDigits_append, ih, ofDigits_cons,
        List.length_map, List.length_reverse, List.map_singleton, Nat.ofDigits_singleton,
        Nat.mul_comm, Nat.add_comm]

theorem value_eq (n : IntegerText) : n.value = signed n.sign (ofDigits n.digits) := by
  simp [value, signed, isMinus, magnitude_eq]

end IntegerText

variable {text : Bytes} {n : IntegerText}

theorem readInteger_scan (present : text.dropWhile isSpace ≠ []) :
    readInteger text =
      match IntegerText.scan? (text.dropWhile isSpace) with
      | none => .error .malformed
      | some n =>
          if n.text.length < (text.dropWhile isSpace).length then
            .error (.trailing (text.length - (text.dropWhile isSpace).length + n.text.length))
          else if -(2 ^ 63) ≤ n.value ∧ n.value < 2 ^ 63 then .ok (.ofInt n.value)
          else .error .outOfRange := by
  simp only [readInteger, IntegerText.scan?, List.isEmpty_iff, present, if_false]
  split <;> simp [*, IntegerText.text, IntegerText.value_eq]

theorem readInteger_empty_iff :
    readInteger text = .error .empty ↔ text.dropWhile isSpace = [] := by
  by_cases empty : text.dropWhile isSpace = []
  · simp [readInteger, empty]
  rw [readInteger_scan empty]
  split
  · simp [empty]
  split
  · simp [empty]
  split <;> simp [empty]

theorem readInteger_malformed_iff :
    readInteger text = .error .malformed ↔ text.dropWhile isSpace ≠ [] ∧
      ∀ n : IntegerText, n.WellFormed → ¬ n.text <+: text.dropWhile isSpace := by
  rw [← IntegerText.scan?_eq_none_iff]
  by_cases empty : text.dropWhile isSpace = []
  · simp [readInteger, empty]
  rw [readInteger_scan empty]
  split
  · next absent => simp [empty, absent]
  · next scanned =>
      split
      · simp [scanned]
      split <;> simp [scanned]

theorem readInteger_longest (longest : n.IsLongest (text.dropWhile isSpace)) :
    readInteger text =
      if n.text.length < (text.dropWhile isSpace).length then
        .error (.trailing (text.length - (text.dropWhile isSpace).length + n.text.length))
      else if -(2 ^ 63) ≤ n.value ∧ n.value < 2 ^ 63 then .ok (.ofInt n.value)
      else .error .outOfRange := by
  have present : text.dropWhile isSpace ≠ [] := by
    intro empty
    have front := longest.front
    rw [empty, List.prefix_nil] at front
    exact longest.formed.present (List.append_eq_nil_iff.mp front).2
  rw [readInteger_scan present, longest.scan?]

theorem readInteger_trailing_iff (longest : n.IsLongest (text.dropWhile isSpace)) (offset : Nat) :
    readInteger text = .error (.trailing offset) ↔
      n.text.length < (text.dropWhile isSpace).length ∧
        offset = text.length - (text.dropWhile isSpace).length + n.text.length := by
  rw [readInteger_longest longest]
  split
  · next more => simp [more, eq_comm]
  · next whole => split <;> simp [whole]

theorem readInteger_whole (longest : n.IsLongest (text.dropWhile isSpace))
    (whole : n.text.length = (text.dropWhile isSpace).length) :
    readInteger text =
      if -(2 ^ 63) ≤ n.value ∧ n.value < 2 ^ 63 then .ok (.ofInt n.value)
      else .error .outOfRange := by
  rw [readInteger_longest longest, if_neg (by omega)]

/-- The reasons for a refusal are told apart exactly: nothing behind the leading spaces, no integer
there, bytes behind the longest one whatever its size, or an integer outside 64 bits. -/
theorem readInteger_classifies (text : String) :
    let body := utf8 (withoutLeadingSpace text)
    let result := readInteger (utf8 text)
    (result = .error .empty ↔ body = []) ∧
    (result = .error .malformed ↔
      body ≠ [] ∧ ∀ n : IntegerText, n.WellFormed → ¬ n.text <+: body) ∧
    ((∃ n : IntegerText, n.WellFormed ∧ n.text <+: body) → ∃ n : IntegerText, n.IsLongest body) ∧
    ∀ n : IntegerText, n.IsLongest body →
      let offset := (utf8 text).length - body.length + n.text.length
      (∀ k, result = .error (.trailing k) ↔ n.text.length < body.length ∧ k = offset) ∧
      (n.text.length < body.length →
        offset < (utf8 text).length ∧ String.Pos.Raw.IsValid text ⟨offset⟩) ∧
      (n.text.length = body.length →
        (result = .error .outOfRange ↔ n.value < -2 ^ 63 ∨ 2 ^ 63 - 1 < n.value) ∧
        (-2 ^ 63 ≤ n.value → n.value ≤ 2 ^ 63 - 1 →
          ∃ x : Int64, result = .ok x ∧ x.toInt = n.value)) := by
  dsimp only
  rw [utf8_withoutLeadingSpace]
  refine ⟨readInteger_empty_iff, readInteger_malformed_iff, ?_, fun n longest => ⟨?_, ?_, ?_⟩⟩
  · rintro ⟨n, formed, front⟩
    cases scanned : IntegerText.scan? ((utf8 text).dropWhile isSpace) with
    | none => exact absurd front (IntegerText.scan?_eq_none_iff.mp scanned n formed)
    | some longest => exact ⟨longest, IntegerText.scan?_isLongest scanned⟩
  · exact readInteger_trailing_iff longest
  · intro more
    have shorter := (List.dropWhile_sublist isSpace (l := utf8 text)).length_le
    have ascii : ∀ b ∈ n.text, isAscii b := fun b mem =>
      isAscii_of_isNumeric (IntegerText.isNumeric_text longest.formed b mem)
    exact ⟨by omega, isValid_behind ascii longest.front⟩
  · intro whole
    rw [readInteger_whole longest whole]
    constructor
    · split
      · next inside => simp only [reduceCtorEq, false_iff]; omega
      · next outside => simp only [true_iff]; omega
    · intro lower upper
      have inside : -(2 ^ 63) ≤ n.value ∧ n.value < 2 ^ 63 := ⟨lower, by omega⟩
      rw [if_pos inside]
      exact ⟨_, rfl, Int64.toInt_ofInt_of_le inside.1 inside.2⟩

-- The least integer of all with zeros in front, the one below it, and one of any size before more.
theorem readInteger_classifies_least :
    (∃ x : Int64, readInteger (utf8 " \t-0009223372036854775808") = .ok x ∧ x.toInt = -2 ^ 63) ∧
      readInteger (utf8 "-9223372036854775809") = .error .outOfRange ∧
      (readInteger (utf8 "\x0b+99999999999999999999é") = .error (.trailing 22) ∧
        String.Pos.Raw.IsValid "\x0b+99999999999999999999é" ⟨22⟩) := by
  let least : IntegerText := ⟨some minusByte, utf8 "0009223372036854775808"⟩
  let below : IntegerText := ⟨some minusByte, utf8 "9223372036854775809"⟩
  let large : IntegerText := ⟨some plusByte, utf8 "99999999999999999999"⟩
  have first := (readInteger_classifies " \t-0009223372036854775808").2.2.2 least
  have second := (readInteger_classifies "-9223372036854775809").2.2.2 below
  have third := (readInteger_classifies "\x0b+99999999999999999999é").2.2.2 large
  rw [utf8_withoutLeadingSpace] at first second third
  obtain ⟨_, _, whole⟩ := first (IntegerText.scan?_isLongest (by decide))
  obtain ⟨_, _, beyond⟩ := second (IntegerText.scan?_isLongest (by decide))
  obtain ⟨trailing, inside, _⟩ := third (IntegerText.scan?_isLongest (by decide))
  refine ⟨?_, ?_, (trailing 22).mpr (by decide), (inside (by decide)).2⟩
  · exact (whole (by decide)).2 (by decide) (by decide)
  · exact (beyond (by decide)).1.mpr (.inl (by decide))

end ByteCursor
