import ByteCursor.Numeric.Reading

set_option autoImplicit false

namespace ByteCursor

structure ExponentText.WellFormed (e : ExponentText) : Prop where
  marker : isExponentMarker e.marker
  sign : ∀ b ∈ e.sign, isSign b
  digits : ∀ b ∈ e.digits, isDigit b
  present : e.digits ≠ []

structure DecimalText.WellFormed (d : DecimalText) : Prop where
  sign : ∀ b ∈ d.sign, isSign b
  whole : ∀ b ∈ d.whole, isDigit b
  places : ∀ b ∈ d.places, isDigit b
  present : d.whole ≠ [] ∨ d.places ≠ []
  exponent : ∀ e ∈ d.exponent, e.WellFormed

theorem isSign_iff (b : UInt8) : isSign b ↔ b = plusByte ∨ b = minusByte := by
  simp [isSign]

theorem isExponentMarker_iff (b : UInt8) :
    isExponentMarker b ↔ b = 'e'.toUInt8 ∨ b = 'E'.toUInt8 := by
  simp [isExponentMarker]

theorem isDigit_iff (b : UInt8) : isDigit b ↔ 48 ≤ b.toNat ∧ b.toNat ≤ 57 := by
  simp only [isDigit, Bool.and_eq_true, decide_eq_true_eq, UInt8.le_iff_toNat_le]
  rfl

theorem isBlank_iff (b : UInt8) : isBlank b ↔ b.toNat ≤ 0x20 := by
  simp only [isBlank, decide_eq_true_eq, UInt8.le_iff_toNat_le]
  rfl

theorem isSign_of_isDigit {b : UInt8} (digit : isDigit b) : isSign b = false := by
  rw [isDigit_iff] at digit
  apply Bool.eq_false_iff.mpr
  intro sign
  rcases (isSign_iff b).mp sign with rfl | rfl <;> revert digit <;> decide

theorem isDigit_of_isExponentMarker {b : UInt8} (marker : isExponentMarker b) :
    isDigit b = false := by
  rcases (isExponentMarker_iff b).mp marker with rfl | rfl <;> decide

theorem point_of_isExponentMarker {b : UInt8} (marker : isExponentMarker b) : b ≠ pointByte := by
  rcases (isExponentMarker_iff b).mp marker with rfl | rfl <;> decide

theorem isNumeric_iff (b : UInt8) :
    isNumeric b ↔ isDigit b ∨ isSign b ∨ b = pointByte ∨ isExponentMarker b := by
  simp only [isNumeric, Bool.or_eq_true, beq_iff_eq, or_assoc]

theorem toNat_of_isNumeric {b : UInt8} (numeric : isNumeric b) : 43 ≤ b.toNat ∧ b.toNat ≤ 101 := by
  rcases (isNumeric_iff b).mp numeric with digit | sign | rfl | marker
  · rw [isDigit_iff] at digit
    omega
  · rcases (isSign_iff b).mp sign with rfl | rfl <;> decide
  · decide
  · rcases (isExponentMarker_iff b).mp marker with rfl | rfl <;> decide

theorem isSpace_of_isNumeric {b : UInt8} (numeric : isNumeric b) : isSpace b = false := by
  have late := (toNat_of_isNumeric numeric).1
  rw [Bool.eq_false_iff, Ne, isSpace_iff]
  omega

theorem isBlank_of_isNumeric {b : UInt8} (numeric : isNumeric b) : isBlank b = false := by
  have late := (toNat_of_isNumeric numeric).1
  rw [Bool.eq_false_iff, Ne, isBlank_iff]
  omega

theorem lowered_of_isNumeric {b : UInt8} (numeric : isNumeric b) :
    lowered b ≠ 'i'.toUInt8 ∧ lowered b ≠ 'n'.toUInt8 := by
  rcases (isNumeric_iff b).mp numeric with digit | sign | rfl | marker
  · rw [isDigit_iff] at digit
    have same : lowered b = b := by
      have small : ¬ 'A'.toUInt8 ≤ b := by
        rw [UInt8.le_iff_toNat_le]
        change ¬ 65 ≤ b.toNat
        omega
      simp [lowered, small]
    rw [same]
    constructor <;> rintro rfl <;> revert digit <;> decide
  · rcases (isSign_iff b).mp sign with rfl | rfl <;> decide
  · decide
  · rcases (isExponentMarker_iff b).mp marker with rfl | rfl <;> decide

theorem takeWhile_before {p : UInt8 → Bool} {front rest : Bytes} (inside : ∀ b ∈ front, p b)
    (stops : ∀ b ∈ rest.head?, p b = false) : (front ++ rest).takeWhile p = front := by
  rw [List.takeWhile_append_of_pos inside]
  cases rest with
  | nil => simp
  | cons b bs => simp [stops b rfl]

theorem dropWhile_before {p : UInt8 → Bool} {front rest : Bytes} (inside : ∀ b ∈ front, p b)
    (stops : ∀ b ∈ rest.head?, p b = false) : (front ++ rest).dropWhile p = rest := by
  rw [List.dropWhile_append_of_pos inside]
  cases rest with
  | nil => rfl
  | cons b bs => simp [stops b rfl]

theorem mem_takeWhile {p : UInt8 → Bool} {bs : Bytes} {b : UInt8} (present : b ∈ bs.takeWhile p) :
    p b := by
  have all := List.all_takeWhile (p := p) (l := bs)
  exact List.all_eq_true.mp all b present

theorem dropWhile_numeric {bs : Bytes} (numeric : ∀ b ∈ bs, isNumeric b) :
    bs.dropWhile isSpace = bs := by
  cases bs with
  | nil => rfl
  | cons b rest => simp [isSpace_of_isNumeric (numeric b List.mem_cons_self)]

theorem splitSign_before {sign : Option UInt8} {body : Bytes} (signs : ∀ b ∈ sign, isSign b)
    (stops : ∀ b ∈ body.head?, isSign b = false) :
    splitSign (sign.toList ++ body) = (sign, body) := by
  cases sign with
  | some b => simp [splitSign, signs b rfl]
  | none =>
      cases body with
      | nil => rfl
      | cons b bs => simp [splitSign, stops b rfl]

theorem splitSign_sign (bs : Bytes) : ∀ b ∈ (splitSign bs).1, isSign b := by
  cases bs with
  | nil => simp [splitSign]
  | cons b bs =>
      simp only [splitSign]
      split <;> simp_all

namespace ExponentText

theorem scan?_before {e : ExponentText} (formed : e.WellFormed) (rest : Bytes) :
    scan? (e.text ++ rest) = some { e with digits := e.digits ++ rest.takeWhile isDigit } := by
  have stops : ∀ b ∈ (e.digits ++ rest).head?, isSign b = false := by
    obtain ⟨d, ds, same⟩ := List.exists_cons_of_ne_nil formed.present
    rw [same]
    rintro b ⟨⟩
    exact isSign_of_isDigit (formed.digits d (by simp [same]))
  have run : (e.digits ++ rest).takeWhile isDigit = e.digits ++ rest.takeWhile isDigit :=
    List.takeWhile_append_of_pos formed.digits
  simp only [text, List.cons_append, List.append_assoc, scan?, splitSign_before formed.sign stops,
    run, formed.marker]
  simp [formed.present]

theorem scan?_text {e : ExponentText} (formed : e.WellFormed) : scan? e.text = some e := by
  simpa using scan?_before formed []

theorem scan?_wellFormed {bs : Bytes} {e : ExponentText} (scanned : scan? bs = some e) :
    e.WellFormed := by
  cases bs with
  | nil => cases scanned
  | cons b bs =>
      simp only [scan?, Option.ite_none_right_eq_some, Option.some.injEq, Bool.and_eq_true] at scanned
      obtain ⟨⟨marker, present⟩, rfl⟩ := scanned
      refine ⟨marker, splitSign_sign bs, fun b mem => mem_takeWhile mem, ?_⟩
      simpa using present

end ExponentText

namespace DecimalText

def tail (d : DecimalText) : Bytes :=
  fractionText d.fraction ++ (d.exponent.map ExponentText.text).getD []

theorem text_eq (d : DecimalText) : d.text = d.sign.toList ++ (d.whole ++ d.tail) := by
  simp only [text, tail, List.append_assoc]

variable {d : DecimalText}

theorem exponent_head (formed : d.WellFormed) :
    ∀ b ∈ ((d.exponent.map ExponentText.text).getD []).head?, isExponentMarker b := by
  cases written : d.exponent with
  | none => simp
  | some e => simpa [ExponentText.text] using (formed.exponent e written).marker

theorem tail_head (formed : d.WellFormed) :
    ∀ b ∈ d.tail.head?, b = pointByte ∨ isExponentMarker b := by
  intro b head
  unfold tail fractionText at head
  cases written : d.fraction with
  | some places =>
      simp only [written, Option.map_some, Option.getD_some, List.cons_append, List.head?_cons,
        Option.mem_some_iff] at head
      exact .inl head.symm
  | none =>
      simp only [written, Option.map_none, Option.getD_none, List.nil_append] at head
      exact .inr (exponent_head formed b head)

theorem tail_isDigit (formed : d.WellFormed) : ∀ b ∈ d.tail.head?, isDigit b = false := by
  intro b head
  rcases tail_head formed b head with rfl | marker
  · decide
  · exact isDigit_of_isExponentMarker marker

theorem body_head (formed : d.WellFormed) :
    ∃ b rest, d.whole ++ d.tail = b :: rest ∧ (isDigit b ∨ b = pointByte) := by
  cases whole : d.whole with
  | cons b bs => exact ⟨b, bs ++ d.tail, rfl, .inl (formed.whole b (by simp [whole]))⟩
  | nil =>
      have places := formed.present.resolve_left (by simp [whole])
      unfold DecimalText.places at places
      cases written : d.fraction with
      | none => simp [written] at places
      | some ds =>
          refine ⟨pointByte, ds ++ (d.exponent.map ExponentText.text).getD [], ?_, .inr rfl⟩
          simp [tail, fractionText, written]

theorem isMinus_head (formed : d.WellFormed) : isMinus d.text.head? = isMinus d.sign := by
  cases sign : d.sign with
  | some b => simp [text, sign]
  | none =>
      obtain ⟨b, rest, same, start⟩ := body_head formed
      have other : b ≠ minusByte := by
        rcases start with digit | rfl
        · rintro rfl
          exact absurd digit (by decide)
        · decide
      simp [text_eq, sign, same, isMinus, other]

theorem splitSign_text (formed : d.WellFormed) (rest : Bytes) :
    splitSign (d.text ++ rest) = (d.sign, d.whole ++ d.tail ++ rest) := by
  rw [text_eq, List.append_assoc]
  apply splitSign_before formed.sign
  obtain ⟨b, more, same, start⟩ := body_head formed
  rw [same]
  rintro c ⟨⟩
  rcases start with digit | rfl
  · exact isSign_of_isDigit digit
  · decide

theorem splitFraction_before {fraction : Option Bytes} {after : Bytes}
    (places : ∀ b ∈ fraction.getD [], isDigit b)
    (stops : ∀ b ∈ after.head?, isDigit b = false ∧ b ≠ pointByte) :
    splitFraction (fractionText fraction ++ after) = (fraction, after) := by
  cases fraction with
  | some ds =>
      have digits : ∀ b ∈ ds, isDigit b := places
      have digit : ∀ b ∈ after.head?, isDigit b = false := fun b head => (stops b head).1
      simp [fractionText, splitFraction, takeWhile_before digits digit,
        dropWhile_before digits digit]
  | none =>
      cases after with
      | nil => rfl
      | cons b bs => simp [fractionText, splitFraction, (stops b rfl).2]

theorem splitFraction_tail (formed : d.WellFormed) :
    splitFraction d.tail = (d.fraction, (d.exponent.map ExponentText.text).getD []) := by
  apply splitFraction_before formed.places
  intro b head
  have marker := exponent_head formed b head
  exact ⟨isDigit_of_isExponentMarker marker, point_of_isExponentMarker marker⟩

theorem scan?_parts {sign : Option UInt8} {whole after text : Bytes}
    (parts : splitSign text = (sign, whole ++ after)) (digits : ∀ b ∈ whole, isDigit b)
    (stops : ∀ b ∈ after.head?, isDigit b = false)
    (present : whole ≠ [] ∨ (splitFraction after).1.getD [] ≠ []) :
    scan? text = some ⟨sign, whole, (splitFraction after).1,
      ExponentText.scan? (splitFraction after).2⟩ := by
  have some : (whole.isEmpty && ((splitFraction after).1.getD []).isEmpty) = false := by
    rcases present with whole | places
    · simp [whole]
    · simp [places]
  simp only [scan?, parts, takeWhile_before digits stops, dropWhile_before digits stops, some]
  rfl

theorem scan?_text (formed : d.WellFormed) : scan? d.text = some d := by
  have parts := splitSign_text formed []
  have exponent : ExponentText.scan? ((d.exponent.map ExponentText.text).getD []) = d.exponent := by
    cases written : d.exponent with
    | none => rfl
    | some e => exact ExponentText.scan?_text (formed.exponent e written)
  have present : d.whole ≠ [] ∨ (splitFraction d.tail).1.getD [] ≠ [] := by
    rw [splitFraction_tail formed]
    exact formed.present
  rw [List.append_nil, List.append_nil] at parts
  rw [scan?_parts parts formed.whole (tail_isDigit formed) present, splitFraction_tail formed,
    exponent]

theorem scan?_wellFormed {bs : Bytes} (scanned : scan? bs = some d) : d.WellFormed := by
  simp only [scan?, Option.ite_none_left_eq_some, Option.some.injEq, Bool.and_eq_true,
    List.isEmpty_iff, Classical.not_and_iff_not_or_not] at scanned
  obtain ⟨present, rfl⟩ := scanned
  refine ⟨splitSign_sign bs, fun b mem => mem_takeWhile mem, ?_, present, ?_⟩
  · intro b mem
    simp only [places] at mem
    generalize (splitSign bs).2.dropWhile isDigit = rest at mem
    cases rest with
    | nil => simp [splitFraction] at mem
    | cons c cs =>
        simp only [splitFraction] at mem
        split at mem
        · exact mem_takeWhile mem
        · simp at mem
  · intro e found
    exact ExponentText.scan?_wellFormed found

theorem isDigit_of_fraction (formed : d.WellFormed) {ds : Bytes} (written : d.fraction = some ds) :
    ∀ b ∈ ds, isDigit b := by
  have all := formed.places
  rwa [places, written] at all

theorem numeric_text (formed : d.WellFormed) : ∀ b ∈ d.text, isNumeric b := by
  intro b mem
  rw [isNumeric_iff]
  simp only [text, List.mem_append, or_assoc] at mem
  rcases mem with sign | whole | fraction | exponent
  · exact .inr (.inl (formed.sign b (by simpa using sign)))
  · exact .inl (formed.whole b whole)
  · unfold fractionText at fraction
    cases written : d.fraction with
    | none => simp [written] at fraction
    | some ds =>
        rw [written] at fraction
        rcases List.mem_cons.mp fraction with point | place
        · exact .inr (.inr (.inl point))
        · exact .inl (isDigit_of_fraction formed written b place)
  · cases written : d.exponent with
    | none => simp [written] at exponent
    | some e =>
        have parts := formed.exponent e written
        simp only [written, Option.map_some, Option.getD_some, ExponentText.text,
          List.mem_cons, List.mem_append] at exponent
        rcases exponent with rfl | sign | digit
        · exact .inr (.inr (.inr parts.marker))
        · exact .inr (.inl (parts.sign b (by simpa using sign)))
        · exact .inl (parts.digits b digit)

theorem text_ne_nil (formed : d.WellFormed) : d.text ≠ [] := by
  obtain ⟨b, rest, same, _⟩ := body_head formed
  rw [text_eq, same]
  simp

theorem dropWhile_text (formed : d.WellFormed) : d.text.dropWhile isSpace = d.text :=
  dropWhile_numeric (numeric_text formed)

end DecimalText

namespace Word

theorem scan?_spelled {bs : Bytes} {word : Word} (scanned : scan? bs = some word) :
    (bs.take word.spelling.length).map lowered = word.spelling := by
  unfold scan? at scanned
  have spelled := List.find?_some scanned
  exact beq_iff_eq.mp spelled

theorem spelling_head (word : Word) :
    ∃ rest, word.spelling = 'i'.toUInt8 :: rest ∨ word.spelling = 'n'.toUInt8 :: rest := by
  cases word with
  | infinity => exact ⟨utf8 "nfinity", .inl (by decide)⟩
  | inf => exact ⟨utf8 "nf", .inl (by decide)⟩
  | nan => exact ⟨utf8 "an", .inr (by decide)⟩

theorem not_numeric_of_spelled {b : UInt8} {bs : Bytes} {word : Word}
    (spelled : (b :: bs).map lowered = word.spelling) : ¬ isNumeric b := by
  intro numeric
  have letters := lowered_of_isNumeric numeric
  obtain ⟨rest, same | same⟩ := spelling_head word
  · rw [same, List.map_cons] at spelled
    exact letters.1 (List.cons.inj spelled).1
  · rw [same, List.map_cons] at spelled
    exact letters.2 (List.cons.inj spelled).1

theorem scan?_eq_none {b : UInt8} {bs : Bytes} (numeric : isNumeric b) :
    scan? (b :: bs) = none := by
  cases scanned : scan? (b :: bs) with
  | none => rfl
  | some word =>
      have spelled := scan?_spelled scanned
      obtain ⟨rest, same⟩ := spelling_head word
      have length : word.spelling.length = rest.length + 1 := by
        rcases same with same | same <;> rw [same, List.length_cons]
      rw [length, List.take_succ_cons] at spelled
      exact absurd numeric (not_numeric_of_spelled spelled)

theorem scan?_letters {letters : Bytes} {word : Word}
    (spelled : letters.map lowered = word.spelling) : scan? letters = some word := by
  have length : letters.length = word.spelling.length := by
    rw [← List.length_map lowered, spelled]
  have taken : ∀ other : Word, (letters.take other.spelling.length).map lowered =
      word.spelling.take other.spelling.length := by
    intro other
    rw [List.map_take, spelled]
  simp only [scan?, taken]
  cases word <;> decide

end Word

namespace Numeral

variable {bs : Bytes} {n : Numeral}

def WellFormed : Numeral → Prop
  | decimal d => d.WellFormed
  | word sign kind letters => (∀ b ∈ sign, isSign b) ∧ letters.map lowered = kind.spelling

theorem scan?_wellFormed (scanned : scan? bs = some n) : n.WellFormed := by
  rcases Option.or_eq_some_iff.mp scanned with word | ⟨_, decimal⟩
  · obtain ⟨kind, found, rfl⟩ := Option.map_eq_some_iff.mp word
    exact ⟨splitSign_sign bs, Word.scan?_spelled found⟩
  · obtain ⟨d, found, rfl⟩ := Option.map_eq_some_iff.mp decimal
    exact DecimalText.scan?_wellFormed found

theorem scanWord?_decimalText {d : DecimalText} (formed : d.WellFormed) (rest : Bytes) :
    scanWord? (d.text ++ rest) = none := by
  obtain ⟨b, more, same, start⟩ := DecimalText.body_head formed
  have numeric : isNumeric b := (isNumeric_iff b).mpr (by
    rcases start with digit | point
    · exact .inl digit
    · exact .inr (.inr (.inl point)))
  simp only [scanWord?, DecimalText.splitSign_text formed rest, same, List.cons_append,
    Word.scan?_eq_none numeric, Option.map_none]

theorem scan?_decimalText {d : DecimalText} (formed : d.WellFormed) :
    scan? d.text = some (.decimal d) := by
  have word := scanWord?_decimalText formed []
  rw [List.append_nil] at word
  rw [scan?, word, DecimalText.scan?_text formed]
  rfl

theorem splitSign_word {sign : Option UInt8} {kind : Word} {letters : Bytes}
    (formed : (word sign kind letters).WellFormed) (rest : Bytes) :
    splitSign (sign.toList ++ (letters ++ rest)) = (sign, letters ++ rest) := by
  apply splitSign_before formed.1
  intro b head
  cases letters with
  | nil => cases kind <;> exact absurd formed.2 (by decide)
  | cons c cs =>
      obtain rfl := Option.mem_some_iff.mp head
      apply Bool.eq_false_iff.mpr
      intro sign
      exact Word.not_numeric_of_spelled formed.2 ((isNumeric_iff _).mpr (.inr (.inl sign)))

theorem scan?_text (formed : n.WellFormed) : scan? n.text = some n := by
  cases n with
  | decimal d => exact scan?_decimalText formed
  | word sign kind letters =>
      have parts := splitSign_word formed []
      have length : letters.length = kind.spelling.length := by
        rw [← List.length_map lowered, formed.2]
      rw [List.append_nil] at parts
      have found : scanWord? (sign.toList ++ letters) = some (.word sign kind letters) := by
        simp only [scanWord?, parts, Word.scan?_letters formed.2, Option.map_some, ← length,
          List.take_length]
      rw [text, scan?, found, Option.some_or]

theorem text_ne_nil (formed : n.WellFormed) : n.text ≠ [] := by
  cases n with
  | decimal d => exact DecimalText.text_ne_nil formed
  | word sign kind letters =>
      intro empty
      have none := (List.append_eq_nil_iff.mp empty).2
      rw [none] at formed
      cases kind <;> exact absurd formed.2 (by decide)

end Numeral

end ByteCursor
