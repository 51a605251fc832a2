import ByteCursor.Numeric.Binary64

set_option autoImplicit false

namespace ByteCursor

attribute [local instance] power

structure Decimal where
  negative : Bool
  coefficient : Nat
  exponent : Int
  deriving Repr, DecidableEq

namespace Decimal

def nearest (d : Decimal) : Binary64 :=
  if d.coefficient = 0 then .zero d.negative
  else match d.exponent with
    | .ofNat k =>
        if 309 ≤ k then .infinite d.negative
        else .nearest d.negative (d.coefficient * 10 ^ k * unitsPerOne) 1
    | .negSucc k =>
        if d.coefficient.log2 + 1077 ≤ 3 * (k + 1) then .zero d.negative
        else .nearest d.negative (d.coefficient * unitsPerOne) (10 ^ (k + 1))

end Decimal

end ByteCursor
