import ByteCursor.Numeric.Digits
import ByteCursor.Numeric.Decimal

set_option autoImplicit false

namespace ByteCursor

def splitSign : Bytes → Option UInt8 × Bytes
  | [] => (none, [])
  | b :: bs => if isSign b then (some b, bs) else (none, b :: bs)

@[simp] theorem splitSign_append (bs : Bytes) :
    (splitSign bs).1.toList ++ (splitSign bs).2 = bs := by
  cases bs with
  | nil => rfl
  | cons b bs => simp only [splitSign]; split <;> simp

def isMinus (sign : Option UInt8) : Bool := sign == some minusByte

def signed (sign : Option UInt8) (magnitude : Nat) : Int :=
  if isMinus sign then -(magnitude : Int) else magnitude

structure ExponentText where
  marker : UInt8
  sign : Option UInt8
  digits : Bytes
  deriving Repr, DecidableEq

namespace ExponentText

def text (e : ExponentText) : Bytes := e.marker :: (e.sign.toList ++ e.digits)

def value (e : ExponentText) : Int := signed e.sign (ofDigits e.digits)

-- A marker with no digits after it does not belong to the number.
def scan? : Bytes → Option ExponentText
  | [] => none
  | b :: bs =>
      let (sign, body) := splitSign bs
      let ds := body.takeWhile isDigit
      if isExponentMarker b && !ds.isEmpty then some ⟨b, sign, ds⟩ else none

theorem text_prefix {bs : Bytes} {e : ExponentText} (scanned : scan? bs = some e) :
    e.text <+: bs := by
  cases bs with
  | nil => simp [scan?] at scanned
  | cons b bs =>
      simp only [scan?, Option.ite_none_right_eq_some, Option.some.injEq] at scanned
      obtain ⟨_, rfl⟩ := scanned
      exact ⟨(splitSign bs).2.dropWhile isDigit, by simp [text]⟩

end ExponentText

structure DecimalText where
  sign : Option UInt8
  whole : Bytes
  fraction : Option Bytes
  exponent : Option ExponentText
  deriving Repr, DecidableEq

namespace DecimalText

def places (d : DecimalText) : Bytes := d.fraction.getD []

def fractionText (fraction : Option Bytes) : Bytes := (fraction.map (pointByte :: ·)).getD []

def text (d : DecimalText) : Bytes :=
  d.sign.toList ++ d.whole ++ fractionText d.fraction ++
    (d.exponent.map ExponentText.text).getD []

def hasNonzeroDigit (d : DecimalText) : Bool :=
  -- The exponent does not count: `0e5` has no digit but zero.
  (d.text.takeWhile fun b => !isExponentMarker b).any fun b =>
    '1'.toUInt8 ≤ b && b ≤ '9'.toUInt8

def value (d : DecimalText) : Decimal where
  negative := isMinus d.sign
  coefficient := ofDigits (d.whole ++ d.places)
  exponent := (d.exponent.map ExponentText.value).getD 0 - d.places.length

def splitFraction : Bytes → Option Bytes × Bytes
  | [] => (none, [])
  | b :: bs =>
      if b = pointByte then (some (bs.takeWhile isDigit), bs.dropWhile isDigit)
      else (none, b :: bs)

@[simp] theorem splitFraction_append (bs : Bytes) :
    fractionText (splitFraction bs).1 ++ (splitFraction bs).2 = bs := by
  cases bs with
  | nil => rfl
  | cons b bs =>
      simp only [splitFraction]
      split <;> simp [fractionText, *]

def scan? (bs : Bytes) : Option DecimalText :=
  let (sign, body) := splitSign bs
  let whole := body.takeWhile isDigit
  let (fraction, rest) := splitFraction (body.dropWhile isDigit)
  if whole.isEmpty && (fraction.getD []).isEmpty then none
  else some ⟨sign, whole, fraction, ExponentText.scan? rest⟩

theorem text_prefix {bs : Bytes} {d : DecimalText} (scanned : scan? bs = some d) :
    d.text <+: bs := by
  simp only [scan?, Option.ite_none_left_eq_some, Option.some.injEq] at scanned
  obtain ⟨_, rfl⟩ := scanned
  conv => rhs; rw [← splitSign_append bs]
  generalize (splitSign bs).2 = body
  conv => rhs; rw [← List.takeWhile_append_dropWhile (p := isDigit) (l := body)]
  generalize body.dropWhile isDigit = rest
  conv => rhs; rw [← splitFraction_append rest]
  simp only [text, List.append_assoc, List.prefix_append_right_inj]
  cases scanned : ExponentText.scan? (splitFraction rest).2 with
  | none => simp
  | some e => simpa using ExponentText.text_prefix scanned

end DecimalText

inductive Word
  | infinity
  | inf
  | nan
  deriving Repr, DecidableEq

namespace Word

def spelling : Word → Bytes
  | infinity => utf8 "infinity"
  | inf => utf8 "inf"
  | nan => utf8 "nan"

def value (negative : Bool) : Word → Binary64
  | infinity | inf => .infinite negative
  | nan => .nan

def scan? (bs : Bytes) : Option Word :=
  [infinity, inf, nan].find? fun word =>
    (bs.take word.spelling.length).map lowered == word.spelling

end Word

inductive Numeral
  | decimal (written : DecimalText)
  | word (sign : Option UInt8) (kind : Word) (letters : Bytes)
  deriving Repr, DecidableEq

namespace Numeral

def text : Numeral → Bytes
  | decimal d => d.text
  | word sign _ letters => sign.toList ++ letters

def value : Numeral → Binary64
  | decimal d => d.value.nearest
  | word sign kind _ => kind.value (isMinus sign)

def inRange : Numeral → Bool
  | decimal d =>
      let x := d.value.nearest
      !(x.isInfinite || x.isSubnormal || (x.isZero && d.hasNonzeroDigit))
  | word .. => true

def scanWord? (bs : Bytes) : Option Numeral :=
  let (sign, body) := splitSign bs
  (Word.scan? body).map fun kind => .word sign kind (body.take kind.spelling.length)

def scan? (bs : Bytes) : Option Numeral :=
  (scanWord? bs).or ((DecimalText.scan? bs).map .decimal)

theorem text_prefix {bs : Bytes} {n : Numeral} (scanned : scan? bs = some n) :
    n.text <+: bs := by
  rcases Option.or_eq_some_iff.mp scanned with word | ⟨_, decimal⟩
  · obtain ⟨kind, _, rfl⟩ := Option.map_eq_some_iff.mp word
    have letters := List.take_prefix kind.spelling.length (splitSign bs).2
    have front := (List.prefix_append_right_inj (splitSign bs).1.toList).mpr letters
    rw [splitSign_append] at front
    exact front
  · obtain ⟨d, written, rfl⟩ := Option.map_eq_some_iff.mp decimal
    exact DecimalText.text_prefix written

end Numeral

end ByteCursor
