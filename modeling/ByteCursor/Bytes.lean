set_option autoImplicit false

namespace ByteCursor

-- Powers without algebra. A module that computes with them makes this a local instance.
@[reducible] def power {α : Type} [NatPow α] : Pow α Nat := instPowNat

abbrev Bytes := List UInt8

def utf8 (text : String) : Bytes := text.toList.flatMap String.utf8EncodeChar

def quoteByte : UInt8 := '"'.toUInt8
def plusByte : UInt8 := '+'.toUInt8
def minusByte : UInt8 := '-'.toUInt8
def pointByte : UInt8 := '.'.toUInt8

def isDigit (b : UInt8) : Bool := '0'.toUInt8 ≤ b && b ≤ '9'.toUInt8

def isSign (b : UInt8) : Bool := b == plusByte || b == minusByte

def isExponentMarker (b : UInt8) : Bool := b == 'e'.toUInt8 || b == 'E'.toUInt8

def isNumeric (b : UInt8) : Bool :=
  isDigit b || isSign b || b == pointByte || isExponentMarker b

def isBlank (b : UInt8) : Bool := b ≤ ' '.toUInt8

def isSpace (b : UInt8) : Bool := b == ' '.toUInt8 || ('\t'.toUInt8 ≤ b && b ≤ '\r'.toUInt8)

theorem isSpace_iff (b : UInt8) : isSpace b ↔ b.toNat = 32 ∨ 9 ≤ b.toNat ∧ b.toNat ≤ 13 := by
  simp only [isSpace, Bool.or_eq_true, beq_iff_eq, Bool.and_eq_true, decide_eq_true_eq,
    UInt8.le_iff_toNat_le, ← UInt8.toNat_inj]
  rfl

def lowered (b : UInt8) : UInt8 :=
  if 'A'.toUInt8 ≤ b && b ≤ 'Z'.toUInt8 then b + 32 else b

end ByteCursor
