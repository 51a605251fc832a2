import ByteCursor.Cursor.Basic
import ByteCursor.Numeric.Reading

set_option autoImplicit false

namespace ByteCursor

abbrev Scan (α : Type) := Bytes → Option (α × Nat)

namespace Scan

def byte : Scan UInt8
  | [] => none
  | b :: _ => some (b, 1)

def pastBlanks : Bytes → Nat
  | [] => 0
  -- The first byte is stepped over whatever it is.
  | _ :: bs => 1 + (bs.takeWhile isBlank).length

def delimited (opening closing : UInt8) : Scan Bytes
  | [] => none
  | b :: bs =>
      if b = opening then
        -- A NUL closes too.
        let inner := bs.takeWhile fun b => b != closing && b != 0
        some (inner, inner.length + 1)
      else none

def bytes (count : Nat) : Scan Bytes := fun bs =>
  if count ≤ bs.length then some (bs.take count, count) else none

def numericRun : Scan Bytes := fun bs =>
  let run := bs.takeWhile isNumeric
  if run.isEmpty then none else some (run, run.length - 1)

def number : Scan Binary64 := fun bs =>
  -- A run without a number counts as zero.
  (numericRun bs).map fun (run, distance) => (frontNumber run, distance)

def literal {σ : Type} (word : Bytes) (sentinel : σ) : Scan σ := fun bs =>
  if word.isPrefixOf bs then some (sentinel, word.length) else none

def boolean : Scan Bool := fun bs =>
  (literal (utf8 "true") true bs).or (literal (utf8 "false") false bs)

end Scan

namespace Cursor

variable {α σ : Type}

def scan (s : Scan α) (c : Cursor) : Option α × Cursor :=
  match s c.rest with
  | none => (none, c)
  | some (value, distance) => (some value, c.moved distance)

def takeByte (c : Cursor) : Option UInt8 × Cursor := c.scan .byte

def skipBlanks (c : Cursor) : Cursor := c.moved (Scan.pastBlanks c.rest)

def takeDelimited (opening closing : UInt8) (c : Cursor) : Option Bytes × Cursor :=
  c.scan (.delimited opening closing)

def takeBytes (count : Nat) (c : Cursor) : Option Bytes × Cursor := c.scan (.bytes count)

def takeNumericRun (c : Cursor) : Option Bytes × Cursor := c.scan .numericRun

def takeNumber (c : Cursor) : Option Binary64 × Cursor := c.scan .number

def takeLiteral (word : Bytes) (sentinel : σ) (c : Cursor) : Option σ × Cursor :=
  c.scan (.literal word sentinel)

def takeBoolean (c : Cursor) : Option Bool × Cursor := c.scan .boolean

def accept (word : Bytes) (c : Cursor) : Bool × Cursor :=
  let (found, after) := c.takeLiteral word ()
  (found.isSome, after)

end Cursor

end ByteCursor
