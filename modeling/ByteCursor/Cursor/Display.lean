import ByteCursor.Cursor.Basic
import ByteCursor.Text.Quoted
import ByteCursor.Text.Utf8

set_option autoImplicit false

namespace ByteCursor

def hexEscape (b : UInt8) : String :=
  let ds := Nat.toDigits 16 b.toNat
  "\\x" ++ String.ofList (List.replicate (2 - ds.length) '0' ++ ds)

def displayedChar (c : Char) : String :=
  if c = '\'' then "\\'"
  -- Control bytes without an escape of their own are shown as bytes, not as characters.
  else if c.toNat < 128 ∧ isInvisible c ∧ c ∉ ['\x00', '\t', '\r', '\n'] then hexEscape c.toUInt8
  else quotedChar c

def displayed (bs : Bytes) : List String :=
  match bs with
  | [] => []
  | b :: rest =>
      match firstChar? (b :: rest) with
      | none => hexEscape b :: displayed rest
      | some c => displayedChar c :: displayed (rest.drop (c.utf8Size - 1))
termination_by bs.length
decreasing_by
  · simp
  · rw [List.length_drop, List.length_cons]
    omega

def Cursor.display (c : Cursor) : String :=
  "TextCursor \x7b buf: \"" ++ String.join (displayed c.buffer) ++
    s!"\", pos: {c.position}, growth: {c.growth}, .. \x7d"

end ByteCursor
