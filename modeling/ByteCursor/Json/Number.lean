set_option autoImplicit false

namespace ByteCursor.Json

structure Exponent where
  marker : Char
  sign : Option Char
  digits : List Char
  deriving Repr, DecidableEq

def Exponent.text (e : Exponent) : List Char := e.marker :: (e.sign.toList ++ e.digits)

structure Number where
  negative : Bool
  whole : List Char
  fraction : Option (List Char)
  exponent : Option Exponent
  deriving Repr, DecidableEq

namespace Number

def text (n : Number) : List Char :=
  (if n.negative then ['-'] else []) ++ n.whole ++
    (n.fraction.map ('.' :: ·)).getD [] ++ (n.exponent.map Exponent.text).getD []

def ofNat (n : Nat) : Number := ⟨false, Nat.toDigits 10 n, none, none⟩

def toNat? : Number → Option Nat
  | ⟨false, whole, none, none⟩ => some (Nat.ofDigitChars 10 whole 0)
  | _ => none

def digitsOf? (cs : List Char) : Option (List Char) :=
  let ds := cs.takeWhile Char.isDigit
  if ds.isEmpty then none else some ds

def scanWhole? : List Char → Option (List Char)
  -- A zero in front stands alone.
  | '0' :: _ => some ['0']
  | cs => digitsOf? cs

def scanFraction? : List Char → Option (List Char)
  | '.' :: cs => digitsOf? cs
  | _ => none

def splitSign : List Char → Option Char × List Char
  | '+' :: cs => (some '+', cs)
  | '-' :: cs => (some '-', cs)
  | cs => (none, cs)

def scanExponent? : List Char → Option Exponent
  | c :: cs =>
      let (sign, body) := splitSign cs
      if c = 'e' ∨ c = 'E' then (digitsOf? body).map fun ds => ⟨c, sign, ds⟩ else none
  | [] => none

def scanUnsigned? (negative : Bool) (cs : List Char) : Option Number := do
  let whole ← scanWhole? cs
  let rest := cs.drop whole.length
  let fraction := scanFraction? rest
  let rest := rest.drop ((fraction.map ('.' :: ·)).getD []).length
  return ⟨negative, whole, fraction, scanExponent? rest⟩

def scan? : List Char → Option Number
  | '-' :: cs => scanUnsigned? true cs
  | cs => scanUnsigned? false cs

end Number

end ByteCursor.Json
