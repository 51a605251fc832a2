import ByteCursor.Allocation
import ByteCursor.Numeric.Digits
import ByteCursor.Numeric.Binary64

set_option autoImplicit false

namespace ByteCursor

attribute [local instance] power

def fixedFractionDigits : Nat := 13

def withSign (negative : Bool) (text : Bytes) : Bytes :=
  if negative then minusByte :: text else text

def Magnitude.inPlaces (places : Nat) (m : Magnitude) : Nat :=
  roundDiv (m.units * 10 ^ places) unitsPerOne

def writeFixed : Binary64 → Bytes
  | .nan => utf8 "nan"
  | .infinite negative => withSign negative (utf8 "inf")
  | .finite negative m =>
      withSign negative (placed fixedFractionDigits (m.inPlaces fixedFractionDigits))

def fixedText (allocator : Allocator) : Binary64 → Except CursorError Bytes
  | .finite negative m =>
      -- Room for the places, a sign, the point and a few digits.
      allocator.reserved (fixedFractionDigits + 8) (writeFixed (.finite negative m))
  | x => .ok (writeFixed x)

theorem fixedText_of_granted {allocator : Allocator}
    (granted : allocator (fixedFractionDigits + 8)) (x : Binary64) :
    fixedText allocator x = .ok (writeFixed x) := by
  cases x <;> simp [fixedText, Allocator.reserved, Allocator.starts, granted]

end ByteCursor
