import ByteCursor.Proofs.Numeric.Longest
import ByteCursor.Proofs.Text.Characters

set_option autoImplicit false

namespace ByteCursor

theorem isAscii_of_isSpace {b : UInt8} (space : isSpace b) : isAscii b := by
  have bounds := (isSpace_iff b).mp space
  exact decide_eq_true (by omega)

theorem isAscii_of_isNumeric {b : UInt8} (numeric : isNumeric b) : isAscii b := by
  have bounds := toNat_of_isNumeric numeric
  exact decide_eq_true (by omega)

theorem isAscii_of_lowered {b : UInt8} (ascii : isAscii (lowered b)) : isAscii b := by
  unfold lowered at ascii
  split at ascii
  · next letter =>
      have last := of_decide_eq_true (Bool.and_eq_true_iff.mp letter).2
      rw [UInt8.le_iff_toNat_le] at last
      exact decide_eq_true (Nat.lt_of_le_of_lt last (by decide))
  · exact ascii

theorem Word.isAscii_of_spelled {letters : Bytes} {word : Word}
    (spelled : letters.map lowered = word.spelling) : ∀ b ∈ letters, isAscii b := by
  intro b mem
  have all : word.spelling.all isAscii := by cases word <;> decide
  have lower : lowered b ∈ word.spelling := spelled ▸ List.mem_map_of_mem mem
  exact isAscii_of_lowered (List.all_eq_true.mp all _ lower)

theorem Numeral.isAscii_text {n : Numeral} (formed : n.WellFormed) : ∀ b ∈ n.text, isAscii b := by
  intro b mem
  cases n with
  | decimal d => exact isAscii_of_isNumeric (DecimalText.numeric_text formed b mem)
  | word sign kind letters =>
      rcases List.mem_append.mp mem with sign | letter
      · have signs := formed.1 b (by simpa using sign)
        exact isAscii_of_isNumeric ((isNumeric_iff b).mpr (.inr (.inl signs)))
      · exact Word.isAscii_of_spelled formed.2 b letter

variable {text : Bytes} {n : Numeral}

theorem readNumber_empty_iff :
    readNumber text = .error .empty ↔ text.dropWhile isSpace = [] := by
  simp only [readNumber, List.isEmpty_iff]
  split
  · simp [*]
  split
  · simp [*]
  split
  · simp [*]
  split <;> simp [*]

theorem readNumber_malformed_iff :
    readNumber text = .error .malformed ↔ text.dropWhile isSpace ≠ [] ∧
      ∀ n : Numeral, n.WellFormed → ¬ n.text <+: text.dropWhile isSpace := by
  rw [← Numeral.scan?_eq_none_iff]
  simp only [readNumber, List.isEmpty_iff]
  split
  · simp [*]
  split
  · simp [*]
  split
  · simp [*]
  split <;> simp [*]

theorem readNumber_longest (longest : n.IsLongest (text.dropWhile isSpace)) :
    readNumber text =
      if n.text.length < (text.dropWhile isSpace).length then
        .error (.trailing (text.length - (text.dropWhile isSpace).length + n.text.length))
      else if n.inRange then .ok n.value else .error .outOfRange := by
  have present : text.dropWhile isSpace ≠ [] := by
    intro empty
    have front := longest.front
    rw [empty] at front
    exact Numeral.text_ne_nil longest.formed (List.prefix_nil.mp front)
  simp only [readNumber, List.isEmpty_iff, present, if_false, longest.scan?]

theorem readNumber_trailing_iff (longest : n.IsLongest (text.dropWhile isSpace)) (offset : Nat) :
    readNumber text = .error (.trailing offset) ↔
      n.text.length < (text.dropWhile isSpace).length ∧
        offset = text.length - (text.dropWhile isSpace).length + n.text.length := by
  rw [readNumber_longest longest]
  split
  · next more => simp [more, eq_comm]
  · next whole => split <;> simp [whole]

theorem readNumber_whole (longest : n.IsLongest (text.dropWhile isSpace))
    (whole : n.text.length = (text.dropWhile isSpace).length) :
    readNumber text = if n.inRange then .ok n.value else .error .outOfRange := by
  rw [readNumber_longest longest, if_neg (by omega)]

theorem isValid_behind {text : String} {front : Bytes} (ascii : ∀ b ∈ front, isAscii b)
    (starts : front <+: (utf8 text).dropWhile isSpace) :
    String.Pos.Raw.IsValid text
      ⟨(utf8 text).length - ((utf8 text).dropWhile isSpace).length + front.length⟩ := by
  obtain ⟨rest, same⟩ := starts
  have split := List.takeWhile_append_dropWhile (p := isSpace) (l := utf8 text)
  have whole : ((utf8 text).takeWhile isSpace ++ front) ++ rest = utf8 text := by
    rw [List.append_assoc, same, split]
  have all : ∀ b ∈ (utf8 text).takeWhile isSpace ++ front, isAscii b := by
    intro b mem
    rcases List.mem_append.mp mem with space | digit
    · exact isAscii_of_isSpace (mem_takeWhile space)
    · exact ascii b digit
  have lengths := congrArg List.length split
  rw [List.length_append] at lengths
  have skipped : (utf8 text).length - ((utf8 text).dropWhile isSpace).length =
      ((utf8 text).takeWhile isSpace).length := by
    omega
  rw [skipped, ← List.length_append]
  exact isValid_of_ascii whole all

/-- The reasons for a refusal are told apart exactly: nothing behind the leading spaces, no numeral
there, or bytes behind the longest one. -/
theorem readNumber_classifies (text : String) :
    let body := utf8 (withoutLeadingSpace text)
    let result := readNumber (utf8 text)
    (result = .error .empty ↔ body = []) ∧
    (result = .error .malformed ↔
      body ≠ [] ∧ ∀ n : Numeral, n.WellFormed → ¬ n.text <+: body) ∧
    ((∃ n : Numeral, n.WellFormed ∧ n.text <+: body) → ∃ n : Numeral, n.IsLongest body) ∧
    ∀ n : Numeral, n.IsLongest body →
      let offset := (utf8 text).length - body.length + n.text.length
      (∀ k, result = .error (.trailing k) ↔ n.text.length < body.length ∧ k = offset) ∧
      (n.text.length < body.length →
        offset < (utf8 text).length ∧ String.Pos.Raw.IsValid text ⟨offset⟩) ∧
      (n.text.length = body.length →
        ((∃ x, result = .ok x) ∨ result = .error .outOfRange) ∧
        ∀ sign kind letters, n = .word sign kind letters →
          result = .ok (if kind = .nan then .nan else .infinite (isMinus sign))) := by
  dsimp only
  rw [utf8_withoutLeadingSpace]
  refine ⟨readNumber_empty_iff, readNumber_malformed_iff, ?_, fun n longest => ⟨?_, ?_, ?_⟩⟩
  · rintro ⟨n, formed, front⟩
    cases scanned : Numeral.scan? ((utf8 text).dropWhile isSpace) with
    | none => exact absurd front (Numeral.scan?_eq_none_iff.mp scanned n formed)
    | some longest => exact ⟨longest, Numeral.scan?_isLongest scanned⟩
  · exact readNumber_trailing_iff longest
  · intro more
    have shorter := (List.dropWhile_sublist isSpace (l := utf8 text)).length_le
    exact ⟨by omega, isValid_behind (Numeral.isAscii_text longest.formed) longest.front⟩
  · intro whole
    have read := readNumber_whole longest whole
    constructor
    · by_cases inside : n.inRange
      · exact .inl ⟨n.value, by rw [read, if_pos inside]⟩
      · exact .inr (by rw [read, if_neg inside])
    · rintro sign kind letters rfl
      rw [read]
      cases kind <;> rfl

-- A number that no double holds and two characters behind it, and a word.
theorem readNumber_classifies_tabbed :
    (readNumber (utf8 "\t+1e999.é") = .error (.trailing 7) ∧
      String.Pos.Raw.IsValid "\t+1e999.é" ⟨7⟩) ∧
      readNumber (utf8 "\x0b-iNfinity") = .ok (.infinite true) := by
  let e : ExponentText := ⟨'e'.toUInt8, none, utf8 "999"⟩
  let large : Numeral := .decimal ⟨some plusByte, utf8 "1", none, some e⟩
  let word : Numeral := .word (some minusByte) .infinity (utf8 "iNfinity")
  have first : utf8 (withoutLeadingSpace "\t+1e999.é") = utf8 "+1e999.é" := by
    rw [utf8_withoutLeadingSpace]
    decide
  have second : utf8 (withoutLeadingSpace "\x0b-iNfinity") = utf8 "-iNfinity" := by
    rw [utf8_withoutLeadingSpace]
    decide
  have number := (readNumber_classifies "\t+1e999.é").2.2.2 large
  have words := (readNumber_classifies "\x0b-iNfinity").2.2.2 word
  rw [first] at number
  rw [second] at words
  obtain ⟨trailing, inside, _⟩ := number (Numeral.scan?_isLongest (by decide))
  obtain ⟨_, _, whole⟩ := words (Numeral.scan?_isLongest (by decide))
  refine ⟨⟨(trailing 7).mpr (by decide), (inside (by decide)).2⟩, ?_⟩
  exact (whole (by decide)).2 _ _ _ rfl

end ByteCursor
