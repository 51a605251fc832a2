import ByteCursor.Proofs.Numeric.Grammar
import Mathlib.Algebra.Group.Nat.Defs

set_option autoImplicit false

namespace ByteCursor.Checked

def add (a b : Nat) : Option Nat := if a + b < 2 ^ 64 then some (a + b) else none

def sub (a b : Nat) : Option Nat := if b ≤ a then some (a - b) else none

def slice (bs : Bytes) (first last : Nat) : Option Bytes :=
  if first ≤ last ∧ last ≤ bs.length then some ((bs.take last).drop first) else none

theorem add_eq {a b : Nat} (small : a + b < 2 ^ 64) : add a b = some (a + b) := if_pos small

theorem sub_eq {a b : Nat} (le : b ≤ a) : sub a b = some (a - b) := if_pos le

theorem slice_eq {bs : Bytes} {first last : Nat} (ordered : first ≤ last)
    (inside : last ≤ bs.length) : slice bs first last = some ((bs.drop first).take (last - first)) := by
  rw [slice, if_pos ⟨ordered, inside⟩, List.drop_take]

theorem slice_drop {bs : Bytes} {first : Nat} (inside : first ≤ bs.length) :
    slice bs first bs.length = some (bs.drop first) := by
  rw [slice, if_pos ⟨inside, Nat.le_refl _⟩, List.take_length]

def countDigits (bs : Bytes) : Nat := (bs.takeWhile isDigit).length

def pastSign (bs : Bytes) (i : Nat) : Option Nat :=
  match bs[i]? with
  | some b => if isSign b then add i 1 else some i
  | none => some i

def beginsWith (body : Bytes) (word : Word) : Option Bool :=
  if word.spelling.length ≤ body.length then do
    let front ← slice body 0 word.spelling.length
    return front.map lowered == word.spelling
  else some false

def wordEnd (bs : Bytes) : Option (Option Nat) := do
  let start ← pastSign bs 0
  let body ← slice bs start bs.length
  match ← [Word.infinity, .inf, .nan].findM? (beginsWith body) with
  | none => return none
  | some word => return some (← add start word.spelling.length)

def fractionEnd (bs : Bytes) (whole i : Nat) : Option (Nat × Nat) :=
  if bs[i]? = some pointByte then do
    let afterPoint ← add i 1
    let places := countDigits (← slice bs afterPoint bs.length)
    if 0 < (← add whole places) then return (places, ← add afterPoint places)
    -- A point with no digit on either side stays.
    else return (places, i)
  else some (0, i)

def exponentEnd (bs : Bytes) (i : Nat) : Option Nat :=
  match bs[i]? with
  | none => some i
  | some b =>
      if isExponentMarker b then do
        let afterSign ← pastSign bs (← add i 1)
        let digits := countDigits (← slice bs afterSign bs.length)
        if 0 < digits then add afterSign digits else some i
      else some i

def decimalEnd (bs : Bytes) : Option Nat := do
  let start ← pastSign bs 0
  let whole := countDigits (← slice bs start bs.length)
  let (places, afterPlaces) ← fractionEnd bs whole (← add start whole)
  if (← add whole places) = 0 then return 0 else exponentEnd bs afterPlaces

def wholeNumber (text : Bytes) : Option Binary64 :=
  ((Numeral.scan? text).filter fun n => n.text == text).map Numeral.value

def leadingNumber (bs : Bytes) : Option (Option (Binary64 × Nat)) := do
  let length ← match ← wordEnd bs with
    | some length => some length
    | none => decimalEnd bs
  if length = 0 then return none
  let text ← slice bs 0 length
  return (wholeNumber text).map fun value => (value, length)

def readNumber (text : Bytes) : Option (Except NumberError Binary64) := do
  let body := text.dropWhile isSpace
  let skipped ← sub text.length body.length
  if body.isEmpty then return .error .empty
  -- No word is out of range.
  let word ← wordEnd body
  match ← leadingNumber body with
  | none => return .error .malformed
  | some (value, used) =>
      if used < body.length then return .error (.trailing (← add skipped used))
      let hasNonzeroDigit := (body.takeWhile fun b => !isExponentMarker b).any fun b =>
        '1'.toUInt8 ≤ b && b ≤ '9'.toUInt8
      if word.isNone &&
          (value.isInfinite || value.isSubnormal || (value.isZero && hasNonzeroDigit)) then
        return .error .outOfRange
      return .ok value

variable {bs : Bytes}

theorem countDigits_le (bs : Bytes) : countDigits bs ≤ bs.length :=
  (List.takeWhile_sublist isDigit).length_le

theorem drop_countDigits (bs : Bytes) : bs.drop (countDigits bs) = bs.dropWhile isDigit := by
  have split := List.takeWhile_append_dropWhile (p := isDigit) (l := bs)
  calc bs.drop (countDigits bs)
      = (bs.takeWhile isDigit ++ bs.dropWhile isDigit).drop (countDigits bs) := by rw [split]
    _ = bs.dropWhile isDigit := List.drop_left' rfl

theorem drop_cons {i : Nat} {b : UInt8} {tail : Bytes} (rest : bs.drop i = b :: tail) :
    i + 1 + tail.length = bs.length ∧ bs.drop (i + 1) = tail := by
  constructor
  · have bound := congrArg List.length rest
    simp only [List.length_drop, List.length_cons] at bound
    omega
  · rw [← List.drop_drop, rest, List.drop_succ_cons, List.drop_zero]

theorem pastSign_eq (small : bs.length < 2 ^ 63) {i : Nat} (inside : i ≤ bs.length) :
    pastSign bs i = some (i + (splitSign (bs.drop i)).1.toList.length) ∧
      i + (splitSign (bs.drop i)).1.toList.length ≤ bs.length ∧
      bs.drop (i + (splitSign (bs.drop i)).1.toList.length) = (splitSign (bs.drop i)).2 := by
  unfold pastSign
  rw [← List.head?_drop]
  cases rest : bs.drop i with
  | nil => simp [splitSign, rest, inside]
  | cons b tail =>
      obtain ⟨bound, next⟩ := drop_cons rest
      by_cases sign : isSign b
      · simp only [List.head?_cons, sign, if_true, splitSign, Option.toList_some, List.length_cons,
          List.length_nil, next, and_true]
        exact ⟨add_eq (by omega), by omega⟩
      · simp [splitSign, sign, rest, inside]

theorem exponentEnd_eq (small : bs.length < 2 ^ 63) (i : Nat) :
    exponentEnd bs i =
      some (i + (((ExponentText.scan? (bs.drop i)).map ExponentText.text).getD []).length) := by
  unfold exponentEnd
  rw [← List.head?_drop]
  cases rest : bs.drop i with
  | nil => simp [ExponentText.scan?]
  | cons b tail =>
      obtain ⟨bound, next⟩ := drop_cons rest
      by_cases marker : isExponentMarker b
      · have sign := pastSign_eq small (i := i + 1) (by omega)
        rw [next] at sign
        obtain ⟨past, within, body⟩ := sign
        have digits := countDigits_le (splitSign tail).2
        rw [← body, List.length_drop, body] at digits
        simp only [List.head?_cons, marker, if_true, add_eq (show i + 1 < 2 ^ 64 by omega),
          Option.bind_eq_bind, Option.bind_some, past, slice_drop within, body,
          ExponentText.scan?, Bool.true_and]
        by_cases present : (splitSign tail).2.takeWhile isDigit = []
        · simp [countDigits, present]
        · have positive : 0 < countDigits (splitSign tail).2 := List.length_pos_iff.mpr present
          rw [if_pos positive, add_eq (by omega)]
          simp only [List.isEmpty_eq_false_iff.mpr present, Bool.not_false, if_true,
            Option.map_some, Option.getD_some, ExponentText.text, List.length_cons,
            List.length_append, countDigits]
          congr 1
          omega
      · simp [ExponentText.scan?, marker]

theorem fractionEnd_eq (small : bs.length < 2 ^ 63) (whole : Nat) {i : Nat} (inside : i ≤ bs.length)
    (short : whole ≤ i) :
    ∃ places, fractionEnd bs whole i = some places ∧
      places.1 = ((DecimalText.splitFraction (bs.drop i)).1.getD []).length ∧
      i + places.1 ≤ bs.length ∧
      (0 < whole + places.1 →
        places.2 = i + (DecimalText.fractionText (DecimalText.splitFraction (bs.drop i)).1).length ∧
          places.2 ≤ bs.length ∧
          bs.drop places.2 = (DecimalText.splitFraction (bs.drop i)).2) := by
  unfold fractionEnd
  rw [← List.head?_drop]
  cases rest : bs.drop i with
  | nil =>
      refine ⟨(0, i), by simp, by simp [DecimalText.splitFraction], inside, ?_⟩
      simp [DecimalText.splitFraction, DecimalText.fractionText, inside, rest]
  | cons b tail =>
      obtain ⟨bound, next⟩ := drop_cons rest
      by_cases point : b = pointByte
      · subst point
        have digits := countDigits_le tail
        have after : i + 1 ≤ bs.length := by omega
        simp only [List.head?_cons, if_true, add_eq (show i + 1 < 2 ^ 64 by omega),
          Option.bind_eq_bind, Option.bind_some, slice_drop after, next,
          add_eq (show whole + countDigits tail < 2 ^ 64 by omega),
          add_eq (show i + 1 + countDigits tail < 2 ^ 64 by omega), DecimalText.splitFraction]
        split
        · next positive =>
            refine ⟨_, rfl, by simp [countDigits], by dsimp only; omega, fun _ => ⟨?_, ?_, ?_⟩⟩
            · simp only [DecimalText.fractionText, Option.map_some, Option.getD_some,
                List.length_cons, countDigits]
              omega
            · dsimp only
              omega
            · rw [← List.drop_drop, next, drop_countDigits]
        · next none =>
            exact ⟨_, rfl, by simp [countDigits], by dsimp only; omega,
              fun some => absurd some none⟩
      · refine ⟨(0, i), by simp [point], by simp [DecimalText.splitFraction, point], inside, ?_⟩
        simp [DecimalText.splitFraction, point, DecimalText.fractionText, inside, rest]

theorem decimalEnd_eq (small : bs.length < 2 ^ 63) :
    decimalEnd bs = some (((DecimalText.scan? bs).map fun d => d.text.length).getD 0) := by
  obtain ⟨past, within, body⟩ := pastSign_eq small (Nat.zero_le bs.length)
  rw [List.drop_zero, Nat.zero_add] at past within body
  have digits := countDigits_le (splitSign bs).2
  have length := congrArg List.length body
  rw [List.length_drop] at length
  have inside : (splitSign bs).1.toList.length + countDigits (splitSign bs).2 ≤ bs.length := by
    omega
  have rest : bs.drop ((splitSign bs).1.toList.length + countDigits (splitSign bs).2) =
      (splitSign bs).2.dropWhile isDigit := by
    rw [← List.drop_drop, body, drop_countDigits]
  obtain ⟨⟨places, last⟩, found, counted, short, ended⟩ :=
    fractionEnd_eq small (countDigits (splitSign bs).2) inside (by omega)
  rw [rest] at counted ended
  dsimp only at counted short ended
  simp only [decimalEnd, past, Option.bind_eq_bind, Option.bind_some, slice_drop within, body,
    add_eq (show (splitSign bs).1.toList.length + countDigits (splitSign bs).2 < 2 ^ 64 by omega),
    found, add_eq (show countDigits (splitSign bs).2 + places < 2 ^ 64 by omega)]
  simp only [DecimalText.scan?]
  by_cases digitless : countDigits (splitSign bs).2 + places = 0
  · have whole : (splitSign bs).2.takeWhile isDigit = [] := List.length_eq_zero_iff.mp (by
      simp only [countDigits] at digitless
      omega)
    have none : (DecimalText.splitFraction ((splitSign bs).2.dropWhile isDigit)).1.getD [] = [] :=
      List.length_eq_zero_iff.mp (by omega)
    simp [digitless, whole, none]
  · obtain ⟨index, _, after⟩ := ended (by omega)
    have present : (((splitSign bs).2.takeWhile isDigit).isEmpty &&
        ((DecimalText.splitFraction ((splitSign bs).2.dropWhile isDigit)).1.getD []).isEmpty) =
          false := by
      apply Bool.eq_false_iff.mpr
      simp only [ne_eq, Bool.and_eq_true, List.isEmpty_iff_length_eq_zero, not_and]
      simp only [countDigits] at digitless
      omega
    rw [if_neg digitless, exponentEnd_eq small, after, present, index]
    simp only [Bool.false_eq_true, if_false, Option.map_some, Option.getD_some, DecimalText.text,
      List.length_append, countDigits]

theorem findM?_eq {α : Type} (test : α → Option Bool) (p : α → Bool) (xs : List α)
    (same : ∀ x, test x = some (p x)) : xs.findM? test = some (xs.find? p) := by
  induction xs with
  | nil => rfl
  | cons x xs ih =>
      simp only [List.findM?, same, Option.bind_eq_bind, Option.bind_some, List.find?_cons]
      cases p x with
      | true => rfl
      | false => exact ih

theorem beginsWith_eq (body : Bytes) (word : Word) :
    beginsWith body word =
      some ((body.take word.spelling.length).map lowered == word.spelling) := by
  unfold beginsWith
  split
  · next fits => simp [slice_eq (Nat.zero_le _) fits]
  · next short =>
      have differ : (body.take word.spelling.length).map lowered ≠ word.spelling := by
        intro same
        have lengths := congrArg List.length same
        rw [List.length_map, List.length_take] at lengths
        omega
      rw [beq_eq_false_iff_ne.mpr differ]

theorem wordEnd_eq (small : bs.length < 2 ^ 63) :
    wordEnd bs = some ((Numeral.scanWord? bs).map fun n => n.text.length) := by
  obtain ⟨past, within, body⟩ := pastSign_eq small (Nat.zero_le bs.length)
  rw [List.drop_zero, Nat.zero_add] at past within body
  have length := congrArg List.length body
  rw [List.length_drop] at length
  simp only [wordEnd, past, Option.bind_eq_bind, Option.bind_some, slice_drop within, body,
    findM?_eq _ _ _ (beginsWith_eq (splitSign bs).2), Numeral.scanWord?, Word.scan?]
  cases found : [Word.infinity, .inf, .nan].find? fun word =>
      ((splitSign bs).2.take word.spelling.length).map lowered == word.spelling with
  | none => rfl
  | some word =>
      have spelled := List.find?_some found
      have lengths := congrArg List.length (beq_iff_eq.mp spelled)
      rw [List.length_map, List.length_take] at lengths
      have sum : add (splitSign bs).1.toList.length word.spelling.length =
          some ((splitSign bs).1.toList.length + word.spelling.length) := add_eq (by omega)
      simp only [sum, Option.bind_some, Option.map_some, Numeral.text, List.length_append,
        List.length_take, lengths]
      rfl

theorem wholeNumber_text {n : Numeral} (scanned : Numeral.scan? bs = some n) :
    wholeNumber n.text = some n.value := by
  have formed := Numeral.scan?_wellFormed scanned
  rw [wholeNumber, Numeral.scan?_text formed, Option.filter_some, if_pos (beq_self_eq_true n.text)]
  rfl

theorem slice_text {n : Numeral} (scanned : Numeral.scan? bs = some n) :
    slice bs 0 n.text.length = some n.text := by
  obtain ⟨rest, front⟩ := Numeral.text_prefix scanned
  rw [slice_eq (Nat.zero_le _) (Numeral.text_prefix scanned).length_le, ← front]
  simp

theorem leadingNumber_eq (small : bs.length < 2 ^ 63) :
    leadingNumber bs = some ((Numeral.scan? bs).map fun n => (n.value, n.text.length)) := by
  have found : ∀ n, Numeral.scan? bs = some n → (do
      if n.text.length = 0 then return none
      let text ← slice bs 0 n.text.length
      return (wholeNumber text).map fun value => (value, n.text.length)) =
        some (some (n.value, n.text.length)) := by
    intro n scanned
    have nonempty : n.text.length ≠ 0 := by
      simpa using Numeral.text_ne_nil (Numeral.scan?_wellFormed scanned)
    simp [nonempty, slice_text scanned, wholeNumber_text scanned]
  simp only [leadingNumber, wordEnd_eq small, Option.bind_eq_bind, Option.bind_some]
  cases word : Numeral.scanWord? bs with
  | some n =>
      have scanned : Numeral.scan? bs = some n := by rw [Numeral.scan?, word, Option.some_or]
      rw [scanned]
      exact found n scanned
  | none =>
      simp only [Option.map_none, decimalEnd_eq small, Option.bind_some]
      cases decimal : DecimalText.scan? bs with
      | none => simp [Numeral.scan?, word, decimal]
      | some d =>
          have scanned : Numeral.scan? bs = some (.decimal d) := by
            rw [Numeral.scan?, word, decimal]
            rfl
          rw [scanned]
          exact found (.decimal d) scanned

theorem inRange_eq {n : Numeral} (scanned : Numeral.scan? bs = some n) (whole : n.text = bs) :
    ((Numeral.scanWord? bs).isNone && (n.value.isInfinite || n.value.isSubnormal ||
      (n.value.isZero && (bs.takeWhile fun b => !isExponentMarker b).any fun b =>
        '1'.toUInt8 ≤ b && b ≤ '9'.toUInt8))) = !n.inRange := by
  cases n with
  | decimal d =>
      have none := Numeral.scanWord?_decimalText (Numeral.scan?_wellFormed scanned) []
      rw [List.append_nil, show d.text = bs from whole] at none
      rw [none, ← whole]
      simp [Numeral.inRange, Numeral.value, Numeral.text, DecimalText.hasNonzeroDigit]
  | word sign kind letters =>
      cases word : Numeral.scanWord? bs with
      | some n => rfl
      | none => simp [Numeral.scan?, word] at scanned

theorem readNumber_eq {text : Bytes} (small : text.length < 2 ^ 63) :
    readNumber text = some (ByteCursor.readNumber text) := by
  have shorter := (List.dropWhile_sublist isSpace (l := text)).length_le
  have short : (text.dropWhile isSpace).length < 2 ^ 63 := by omega
  simp only [readNumber, ByteCursor.readNumber, sub_eq shorter, wordEnd_eq short,
    leadingNumber_eq short, Option.bind_eq_bind, Option.bind_some]
  generalize text.dropWhile isSpace = body at *
  by_cases empty : body.isEmpty
  · simp [empty]
  · simp only [empty, Bool.false_eq_true, if_false]
    cases scanned : Numeral.scan? body with
    | none => rfl
    | some n =>
        have front := Numeral.text_prefix scanned
        have fits := front.length_le
        simp only [Option.map_some]
        by_cases more : n.text.length < body.length
        · simp [more, add_eq (show text.length - body.length + n.text.length < 2 ^ 64 by omega)]
        · have whole : n.text = body := front.eq_of_length_le (by omega)
          have range := inRange_eq scanned whole
          rw [← Option.isNone_map (f := fun n : Numeral => n.text.length)] at range
          simp only [more, if_false, range]
          cases n.inRange <;> rfl

end ByteCursor.Checked
