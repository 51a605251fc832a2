set_option autoImplicit false

namespace ByteCursor.Json

def isHexDigit (c : Char) : Bool :=
  c.isDigit || ('a' ≤ c && c ≤ 'f') || ('A' ≤ c && c ≤ 'F')

def hexDigitValue (c : Char) : Nat :=
  if c.isDigit then c.toNat - '0'.toNat
  else if 'a' ≤ c then c.toNat - 'a'.toNat + 10
  else c.toNat - 'A'.toNat + 10

-- Itself, a letter after a backslash, or four hexadecimal digits for a 16-bit code unit.
inductive Piece
  | plain (c : Char)
  | letter (c : Char)
  | hex (a b c d : Char)
  deriving Repr, DecidableEq

namespace Piece

def text : Piece → List Char
  | plain c => [c]
  | letter c => ['\\', c]
  | hex a b c d => ['\\', 'u', a, b, c, d]

def letterValue? : Char → Option Char
  | '"' => some '"'
  | '\\' => some '\\'
  | '/' => some '/'
  | 'b' => some '\x08'
  | 'f' => some '\x0c'
  | 'n' => some '\n'
  | 'r' => some '\r'
  | 't' => some '\t'
  | _ => none

def code (a b c d : Char) : Nat := [a, b, c, d].foldl (fun n x => 16 * n + hexDigitValue x) 0

def isHighSurrogate (n : Nat) : Bool := 0xD800 ≤ n && n ≤ 0xDBFF
def isLowSurrogate (n : Nat) : Bool := 0xDC00 ≤ n && n ≤ 0xDFFF

def decode? : List Piece → Option (List Char)
  | [] => some []
  | plain c :: ps => (decode? ps).map (c :: ·)
  | letter c :: ps => do
      let value ← letterValue? c
      let rest ← decode? ps
      return value :: rest
  | hex a b c d :: hex e f g h :: ps =>
      let high := code a b c d
      let low := code e f g h
      if isHighSurrogate high && isLowSurrogate low then
        (decode? ps).map (Char.ofNat (0x10000 + (high - 0xD800) * 0x400 + (low - 0xDC00)) :: ·)
      else if isHighSurrogate high || isLowSurrogate high then none
      else (decode? (hex e f g h :: ps)).map (Char.ofNat high :: ·)
  | hex a b c d :: ps =>
      let n := code a b c d
      if isHighSurrogate n || isLowSurrogate n then none
      else (decode? ps).map (Char.ofNat n :: ·)

def scan? : List Char → Option (List Piece)
  | [] => none
  | '"' :: _ => some []
  | '\\' :: 'u' :: a :: b :: c :: d :: cs =>
      if [a, b, c, d].all isHexDigit then (scan? cs).map (.hex a b c d :: ·) else none
  | '\\' :: c :: cs =>
      if (letterValue? c).isSome then (scan? cs).map (.letter c :: ·) else none
  | c :: cs => if c = '\\' ∨ c < ' ' then none else (scan? cs).map (.plain c :: ·)

end Piece

end ByteCursor.Json
