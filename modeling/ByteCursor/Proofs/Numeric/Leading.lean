import ByteCursor.Proofs.Numeric.Checked
import ByteCursor.Proofs.Numeric.Classification
import ByteCursor.Proofs.Numeric.Language

set_option autoImplicit false

namespace ByteCursor

inductive Ending
  | nothing
  | notText
  | notNumber
  | number (value : Binary64) (length : Nat)
  deriving Repr, DecidableEq

namespace Ending

def answer : Ending → Option (Binary64 × Nat)
  | number value length => some (value, length)
  | _ => none

def ofScan : Option Numeral → Ending
  | none => nothing
  | some n => number n.value n.text.length

theorem answer_ofScan (found : Option Numeral) :
    (ofScan found).answer = found.map fun n => (n.value, n.text.length) := by
  cases found <;> rfl

end Ending

namespace Checked

open Grammar

def numberEnd (bs : Bytes) : Option Nat := do
  match ← wordEnd bs with
  | some length => return length
  | none => decimalEnd bs

def search (bs : Bytes) : Option Ending := do
  let length ← numberEnd bs
  if length = 0 then return .nothing
  match textOf? (← slice bs 0 length) with
  | none => return .notText
  | some text =>
      match wholeNumber (utf8 text) with
      | none => return .notNumber
      | some value => return .number value length

variable {bs : Bytes}

theorem numberEnd_eq (small : bs.length < 2 ^ 63) :
    numberEnd bs = some (((Numeral.scan? bs).map fun n => n.text.length).getD 0) := by
  simp only [numberEnd, wordEnd_eq small, Option.bind_eq_bind, Option.bind_some, Numeral.scan?]
  cases Numeral.scanWord? bs with
  | some n => rfl
  | none =>
      simp only [Option.map_none, decimalEnd_eq small, Option.none_or]
      cases DecimalText.scan? bs <;> rfl

theorem textOf?_numeral {n : Numeral} (formed : n.WellFormed) :
    ∃ text, textOf? n.text = some text ∧ utf8 text = n.text := by
  obtain ⟨text, bytes⟩ := exists_utf8_of_ascii (Numeral.isAscii_text formed)
  exact ⟨text, by rw [← bytes, textOf?_utf8], bytes⟩

theorem search_eq (small : bs.length < 2 ^ 63) :
    search bs = some (.ofScan (Numeral.scan? bs)) := by
  simp only [search, numberEnd_eq small, Option.bind_eq_bind, Option.bind_some]
  cases scanned : Numeral.scan? bs with
  | none => rfl
  | some n =>
      have formed := Numeral.scan?_wellFormed scanned
      have nonempty : n.text.length ≠ 0 := by simpa using Numeral.text_ne_nil formed
      obtain ⟨text, read, bytes⟩ := textOf?_numeral formed
      have value : wholeNumber (utf8 text) = some n.value := bytes ▸ wholeNumber_text scanned
      simp only [Option.map_some, Option.getD_some, nonempty, if_false, slice_text scanned,
        Option.bind_some, read, value]
      rfl

/-- The search fails no check on bytes that memory can hold, and what it finds is never refused. -/
theorem search_finds_longest (bs : Bytes) :
    ∃ ending : Ending,
      (bs.length < 2 ^ 63 →
        (wordEnd bs).isSome ∧ (decimalEnd bs).isSome ∧ search bs = some ending ∧
          leadingNumber bs = some ending.answer) ∧
      ending.answer = (Numeral.scan? bs).map (fun n => (n.value, n.text.length)) ∧
      ending ≠ .notText ∧ ending ≠ .notNumber ∧
      (ending = .nothing ↔ ∀ front, front <+: bs → front ≠ [] → front ∉ numbers) ∧
      ∀ value length, ending = .number value length ↔
        ∃ n : Numeral, n.WellFormed ∧ IsLongestIn numbers n.text bs ∧
          n.value = value ∧ n.text.length = length := by
  refine ⟨.ofScan (Numeral.scan? bs), fun small => ⟨?_, ?_, search_eq small, ?_⟩,
    Ending.answer_ofScan _, ?_⟩
  · rw [wordEnd_eq small, Option.isSome_some]
  · rw [decimalEnd_eq small, Option.isSome_some]
  · rw [leadingNumber_eq small, Ending.answer_ofScan]
  rw [← Numeral.scan?_eq_none_iff_numbers]
  simp only [← and_assoc, ← Numeral.scan?_eq_some_iff_numbers]
  cases Numeral.scan? bs with
  | none => simp [Ending.ofScan]
  | some n => simp [Ending.ofScan]

-- A number in front of a byte that no text has, a word in front of letters, and no number.
theorem search_finds_longest_broken :
    search (utf8 "-.5e+" ++ [0xff]) =
        some (.number (.finite true ⟨1022 * 2 ^ 52, by decide⟩) 3) ∧
      search (utf8 "+iNfinite") = some (.number (.infinite false) 4) ∧
      search (utf8 "+.e5") = some .nothing := by
  let half : Numeral := .decimal ⟨some minusByte, [], some (utf8 "5"), none⟩
  let word : Numeral := .word (some plusByte) .inf (utf8 "iNf")
  refine ⟨?_, ?_, ?_⟩
  · obtain ⟨ending, found, _, _, _, _, number⟩ := search_finds_longest (utf8 "-.5e+" ++ [0xff])
    obtain ⟨formed, longest⟩ := Numeral.scan?_eq_some_iff_numbers.mp
      (show Numeral.scan? (utf8 "-.5e+" ++ [0xff]) = some half by decide)
    rw [(found (by decide)).2.2.1]
    exact congrArg some ((number _ _).mpr ⟨half, formed, longest, by decide +kernel, rfl⟩)
  · obtain ⟨ending, found, _, _, _, _, number⟩ := search_finds_longest (utf8 "+iNfinite")
    obtain ⟨formed, longest⟩ := Numeral.scan?_eq_some_iff_numbers.mp
      (show Numeral.scan? (utf8 "+iNfinite") = some word by decide)
    rw [(found (by decide)).2.2.1]
    exact congrArg some ((number _ _).mpr ⟨word, formed, longest, rfl, rfl⟩)
  · obtain ⟨ending, found, _, _, _, nothing, _⟩ := search_finds_longest (utf8 "+.e5")
    have none := Numeral.scan?_eq_none_iff_numbers.mp
      (show Numeral.scan? (utf8 "+.e5") = none by decide)
    rw [(found (by decide)).2.2.1, nothing.mpr none]

end Checked

end ByteCursor
