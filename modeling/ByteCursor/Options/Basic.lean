set_option autoImplicit false

namespace ByteCursor

abbrev Size := UInt64

structure Options where
  -- The first growth step too.
  initialCapacity : Size := 0
  fillByte : UInt8 := ' '.toUInt8
  significantDigits : Size := 6
  maxCapacity : Option Size := none
  deriving Repr, DecidableEq, Inhabited

namespace Options

def standard : Options := {}

def allows (options : Options) (bytes : Nat) : Bool :=
  match options.maxCapacity with
  | none => true
  | some limit => bytes ≤ limit.toNat

end Options

end ByteCursor
