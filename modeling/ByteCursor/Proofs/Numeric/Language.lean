import ByteCursor.Proofs.Numeric.Longest
import Mathlib.Computability.Language

set_option autoImplicit false

namespace ByteCursor

open scoped Computability

namespace Grammar

def oneOf (kind : UInt8 → Bool) : Language UInt8 := {text | ∃ b, kind b ∧ text = [b]}

def perhaps (language : Language UInt8) : Language UInt8 := 1 + language

def spelled (word : String) : Language UInt8 := {letters | letters.map lowered = utf8 word}

def signs : Language UInt8 := perhaps (oneOf isSign)

def points : Language UInt8 := {[pointByte]}

def digitRuns : Language UInt8 := oneOf isDigit * (oneOf isDigit)∗

def fractions : Language UInt8 := points * (oneOf isDigit)∗

def mantissas : Language UInt8 := digitRuns * perhaps fractions + points * digitRuns

def exponents : Language UInt8 := oneOf isExponentMarker * signs * digitRuns

def decimals : Language UInt8 := signs * mantissas * perhaps exponents

def words : Language UInt8 := signs * (spelled "inf" + spelled "infinity" + spelled "nan")

def numbers : Language UInt8 := decimals + words

variable {bs : Bytes}

theorem mem_oneOf_star {kind : UInt8 → Bool} : bs ∈ (oneOf kind)∗ ↔ ∀ b ∈ bs, kind b := by
  constructor
  · rintro ⟨singles, rfl, inside⟩ b mem
    obtain ⟨single, listed, mem⟩ := List.mem_flatten.mp mem
    obtain ⟨c, good, rfl⟩ := inside single listed
    rwa [List.mem_singleton.mp mem]
  · intro inside
    have split : bs = (bs.map ([·])).flatten := by
      rw [← List.flatMap_def, List.flatMap_singleton']
    refine ⟨bs.map ([·]), split, fun single listed => ?_⟩
    obtain ⟨b, mem, rfl⟩ := List.mem_map.mp listed
    exact ⟨b, inside b mem, rfl⟩

theorem mem_digitRuns : bs ∈ digitRuns ↔ bs ≠ [] ∧ ∀ b ∈ bs, isDigit b := by
  constructor
  · rintro ⟨_, ⟨b, digit, rfl⟩, rest, digits, rfl⟩
    refine ⟨List.cons_ne_nil b rest, ?_⟩
    exact List.forall_mem_cons.mpr ⟨digit, mem_oneOf_star.mp digits⟩
  · rintro ⟨present, digits⟩
    obtain ⟨b, rest, rfl⟩ := List.exists_cons_of_ne_nil present
    obtain ⟨digit, digits⟩ := List.forall_mem_cons.mp digits
    have first : [b] ∈ oneOf isDigit := ⟨b, digit, rfl⟩
    exact Language.append_mem_mul first (mem_oneOf_star.mpr digits)

theorem mem_perhaps {α : Type} {language : Language UInt8} {formed : α → Prop} {text : α → Bytes}
    (texts : ∀ {bs : Bytes}, bs ∈ language ↔ ∃ a, formed a ∧ text a = bs) :
    bs ∈ perhaps language ↔
      ∃ part : Option α, (∀ a ∈ part, formed a) ∧ (part.map text).getD [] = bs := by
  constructor
  · rintro (rfl | written)
    · exact ⟨none, by simp, rfl⟩
    · obtain ⟨a, well, rfl⟩ := texts.mp written
      exact ⟨some a, by simpa using well, rfl⟩
  · rintro ⟨part, well, rfl⟩
    cases part with
    | none => exact .inl rfl
    | some a => exact .inr (texts.mpr ⟨a, well a rfl, rfl⟩)

theorem mem_signs :
    bs ∈ signs ↔ ∃ sign : Option UInt8, (∀ b ∈ sign, isSign b) ∧ sign.toList = bs := by
  have texts : ∀ {bs : Bytes}, bs ∈ oneOf isSign ↔ ∃ b, isSign b ∧ [b] = bs := by
    intro bs
    simp only [eq_comm (b := bs)]
    rfl
  have same : ∀ sign : Option UInt8, (sign.map ([·])).getD [] = sign.toList := by
    intro sign
    cases sign <;> rfl
  simp only [signs, mem_perhaps texts, same]

theorem mem_points_mul {language : Language UInt8} :
    bs ∈ points * language ↔ ∃ rest ∈ language, pointByte :: rest = bs := by
  constructor
  · rintro ⟨_, rfl, rest, member, rfl⟩
    exact ⟨rest, member, rfl⟩
  · rintro ⟨rest, member, rfl⟩
    exact Language.append_mem_mul (Set.mem_singleton [pointByte]) member

theorem mem_fractions :
    bs ∈ fractions ↔ ∃ places : Bytes, (∀ b ∈ places, isDigit b) ∧ pointByte :: places = bs := by
  simp only [fractions, mem_points_mul, mem_oneOf_star]

theorem mem_mantissas : bs ∈ mantissas ↔ ∃ (whole : Bytes) (fraction : Option Bytes),
    (∀ b ∈ whole, isDigit b) ∧ (∀ places ∈ fraction, ∀ b ∈ places, isDigit b) ∧
      (whole ≠ [] ∨ fraction.getD [] ≠ []) ∧
      whole ++ DecimalText.fractionText fraction = bs := by
  constructor
  · rintro (⟨whole, run, _, behind, rfl⟩ | pointed)
    · obtain ⟨present, digits⟩ := mem_digitRuns.mp run
      obtain ⟨fraction, places, rfl⟩ := (mem_perhaps mem_fractions).mp behind
      exact ⟨whole, fraction, digits, places, .inl present, rfl⟩
    · obtain ⟨places, run, rfl⟩ := mem_points_mul.mp pointed
      obtain ⟨present, digits⟩ := mem_digitRuns.mp run
      exact ⟨[], some places, by simp, by simpa using digits, .inr present, rfl⟩
  · rintro ⟨whole, fraction, digits, places, present, rfl⟩
    by_cases empty : whole = []
    · cases fraction with
      | none => simp [empty] at present
      | some ds =>
          have run := mem_digitRuns.mpr ⟨by simpa [empty] using present, places ds rfl⟩
          subst empty
          exact .inr (mem_points_mul.mpr ⟨ds, run, rfl⟩)
    · have run := mem_digitRuns.mpr ⟨empty, digits⟩
      have behind := (mem_perhaps mem_fractions).mpr ⟨fraction, places, rfl⟩
      exact .inl (Language.append_mem_mul run behind)

theorem mem_exponents : bs ∈ exponents ↔ ∃ e : ExponentText, e.WellFormed ∧ e.text = bs := by
  constructor
  · rintro ⟨_, ⟨_, ⟨marker, marks, rfl⟩, _, front, rfl⟩, digits, run, rfl⟩
    obtain ⟨sign, formed, rfl⟩ := mem_signs.mp front
    obtain ⟨present, inside⟩ := mem_digitRuns.mp run
    exact ⟨⟨marker, sign, digits⟩, ⟨marks, formed, inside, present⟩, rfl⟩
  · rintro ⟨e, formed, rfl⟩
    have marker : [e.marker] ∈ oneOf isExponentMarker := ⟨e.marker, formed.marker, rfl⟩
    have sign := mem_signs.mpr ⟨e.sign, formed.sign, rfl⟩
    have run := mem_digitRuns.mpr ⟨formed.present, formed.digits⟩
    exact Language.append_mem_mul (Language.append_mem_mul marker sign) run

theorem mem_decimals : bs ∈ decimals ↔ ∃ d : DecimalText, d.WellFormed ∧ d.text = bs := by
  constructor
  · rintro ⟨_, ⟨_, front, _, mantissa, rfl⟩, _, behind, rfl⟩
    obtain ⟨sign, signs, rfl⟩ := mem_signs.mp front
    obtain ⟨whole, fraction, digits, places, present, rfl⟩ := mem_mantissas.mp mantissa
    obtain ⟨exponent, formed, rfl⟩ := (mem_perhaps mem_exponents).mp behind
    refine ⟨⟨sign, whole, fraction, exponent⟩, ⟨signs, digits, ?_, present, formed⟩, ?_⟩
    · cases fraction with
      | none => simp [DecimalText.places]
      | some ds => exact places ds rfl
    · simp only [DecimalText.text, List.append_assoc]
  · rintro ⟨d, formed, rfl⟩
    have places : ∀ ds ∈ d.fraction, ∀ b ∈ ds, isDigit b :=
      fun ds written => DecimalText.isDigit_of_fraction formed written
    have sign := mem_signs.mpr ⟨d.sign, formed.sign, rfl⟩
    have mantissa :=
      mem_mantissas.mpr ⟨d.whole, d.fraction, formed.whole, places, formed.present, rfl⟩
    have exponent := (mem_perhaps mem_exponents).mpr ⟨d.exponent, formed.exponent, rfl⟩
    rw [DecimalText.text, List.append_assoc d.sign.toList]
    exact Language.append_mem_mul (Language.append_mem_mul sign mantissa) exponent

theorem mem_words : bs ∈ words ↔ ∃ sign kind letters,
    (Numeral.word sign kind letters).WellFormed ∧ (Numeral.word sign kind letters).text = bs := by
  constructor
  · rintro ⟨_, front, letters, word, rfl⟩
    obtain ⟨sign, signs, rfl⟩ := mem_signs.mp front
    rcases word with (inf | infinity) | nan
    · exact ⟨sign, .inf, letters, ⟨signs, inf⟩, rfl⟩
    · exact ⟨sign, .infinity, letters, ⟨signs, infinity⟩, rfl⟩
    · exact ⟨sign, .nan, letters, ⟨signs, nan⟩, rfl⟩
  · rintro ⟨sign, kind, letters, ⟨signs, same⟩, rfl⟩
    have word : letters ∈ spelled "inf" + spelled "infinity" + spelled "nan" := by
      cases kind with
      | inf => exact .inl (.inl same)
      | infinity => exact .inl (.inr same)
      | nan => exact .inr same
    exact Language.append_mem_mul (mem_signs.mpr ⟨sign, signs, rfl⟩) word

theorem mem_numbers : bs ∈ numbers ↔ ∃ n : Numeral, n.WellFormed ∧ n.text = bs := by
  constructor
  · rintro (decimal | word)
    · obtain ⟨d, formed, rfl⟩ := mem_decimals.mp decimal
      exact ⟨.decimal d, formed, rfl⟩
    · obtain ⟨sign, kind, letters, formed, rfl⟩ := mem_words.mp word
      exact ⟨.word sign kind letters, formed, rfl⟩
  · rintro ⟨n, formed, rfl⟩
    cases n with
    | decimal d => exact .inl (mem_decimals.mpr ⟨d, formed, rfl⟩)
    | word sign kind letters => exact .inr (mem_words.mpr ⟨sign, kind, letters, formed, rfl⟩)

end Grammar

structure IsLongestIn (language : Language UInt8) (front bs : Bytes) : Prop where
  member : front ∈ language
  starts : front <+: bs
  longest : ∀ other ∈ language, other <+: bs → other.length ≤ front.length

namespace Numeral

open Grammar

variable {bs : Bytes} {n : Numeral}

theorem scan?_eq_none_iff_numbers :
    scan? bs = none ↔ ∀ front, front <+: bs → front ≠ [] → front ∉ numbers := by
  rw [scan?_eq_none_iff]
  constructor
  · intro without front starts _ member
    obtain ⟨n, formed, rfl⟩ := mem_numbers.mp member
    exact without n formed starts
  · intro without n formed starts
    exact without n.text starts (text_ne_nil formed) (mem_numbers.mpr ⟨n, formed, rfl⟩)

theorem scan?_eq_some_iff_numbers :
    scan? bs = some n ↔ n.WellFormed ∧ IsLongestIn numbers n.text bs := by
  constructor
  · intro scanned
    obtain ⟨formed, front, longest⟩ := scan?_isLongest scanned
    refine ⟨formed, mem_numbers.mpr ⟨n, formed, rfl⟩, front, fun other member starts => ?_⟩
    obtain ⟨m, well, rfl⟩ := mem_numbers.mp member
    exact longest m well starts
  · rintro ⟨formed, _, front, longest⟩
    refine IsLongest.scan? ⟨formed, front, fun other well starts => ?_⟩
    exact longest other.text (mem_numbers.mpr ⟨other, well, rfl⟩) starts

end Numeral

end ByteCursor
