import ByteCursor.Numeric.Fixed

set_option autoImplicit false

/-!
# Significant digits

A number is rounded to the wanted count of digits, and the place of its first digit after that
rounding chooses between plain and scientific form. The plain form rounds the number once more, to
the places that are left for it. Either form drops final zeros.
-/

namespace ByteCursor

attribute [local instance] power

def maxSignificantDigits : Nat := 17

def clampDigits (wanted : Nat) : Nat := max 1 (min wanted maxSignificantDigits)

-- `coefficient * 10 ^ (exponent + 1 - precision)`, with as many digits as the precision.
structure Significant where
  precision : Nat
  coefficient : Nat
  exponent : Int
  deriving Repr, DecidableEq

namespace Significant

-- No positive magnitude has its first digit below this place.
def lastPlace : Nat := 324

def firstPlace (m : Magnitude) : Nat := digitCount (m.units * 10 ^ lastPlace / unitsPerOne) - 1

def rounded (precision : Nat) (m : Magnitude) : Nat :=
  roundDiv (m.units * 10 ^ (lastPlace + precision)) (unitsPerOne * 10 ^ (firstPlace m + 1))

def ofMagnitude (precision : Nat) (m : Magnitude) : Significant :=
  if rounded precision m = 10 ^ precision then
    ⟨precision, 10 ^ (precision - 1), firstPlace m + 1 - lastPlace⟩
  else ⟨precision, rounded precision m, firstPlace m - lastPlace⟩

def isScientific (s : Significant) : Bool := s.exponent < -4 || s.exponent ≥ s.precision

theorem isScientific_iff (s : Significant) :
    s.isScientific ↔ s.exponent < -4 ∨ s.precision ≤ s.exponent := by
  simp [isScientific]

def exponentText (exponent : Int) : Bytes :=
  let sign := if exponent < 0 then minusByte else plusByte
  let ds := if exponent.natAbs < 10 then lastDigits 2 exponent.natAbs else digits exponent.natAbs
  'e'.toUInt8 :: sign :: ds

def places (s : Significant) : Nat := (s.precision - 1 - s.exponent).toNat

theorem plain_places {s : Significant} (plain : ¬ s.isScientific) :
    -(s.places : Int) = s.exponent + 1 - s.precision ∧ s.places ≤ s.precision + 3 := by
  rw [isScientific_iff] at plain
  unfold places
  omega

def text (m : Magnitude) (s : Significant) : Bytes :=
  if s.isScientific then
    trimmed (s.precision - 1) s.coefficient ++ exponentText s.exponent
  else
    trimmed s.places (m.inPlaces s.places)

end Significant

def writeSignificant (wanted : Nat) : Binary64 → Bytes
  | .nan => utf8 "nan"
  | .infinite negative => withSign negative (utf8 "inf")
  | .finite negative m =>
      withSign negative
        (if m = .zero then digits 0 else (Significant.ofMagnitude (clampDigits wanted) m).text m)

end ByteCursor
