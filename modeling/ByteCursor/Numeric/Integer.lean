import ByteCursor.Allocation
import ByteCursor.Numeric.Error
import ByteCursor.Numeric.Numeral

set_option autoImplicit false

namespace ByteCursor

attribute [local instance] power

def writeInteger (n : Int64) : Bytes :=
  if n < 0 then minusByte :: digits n.toInt.natAbs else digits n.toInt.natAbs

def integerWidth (n : Int64) : Nat :=
  digitCount n.toInt.natAbs + if n < 0 then 1 else 0

theorem length_writeInteger (n : Int64) : (writeInteger n).length = integerWidth n := by
  simp only [writeInteger, integerWidth]
  split <;> simp

def integerText (allocator : Allocator) (n : Int64) : Except CursorError Bytes :=
  allocator.reserved (integerWidth n) (writeInteger n)

def readInteger (text : Bytes) : Except NumberError Int64 :=
  let body := text.dropWhile isSpace
  if body.isEmpty then .error .empty
  else
    let (sign, rest) := splitSign body
    let ds := rest.takeWhile isDigit
    let used := sign.toList.length + ds.length
    if ds.isEmpty then .error .malformed
    else if used < body.length then .error (.trailing (text.length - body.length + used))
    else
      let value := signed sign (ofDigits ds)
      if -(2 ^ (63 : Nat)) ≤ value ∧ value < 2 ^ (63 : Nat) then .ok (.ofInt value)
      else .error .outOfRange

end ByteCursor
