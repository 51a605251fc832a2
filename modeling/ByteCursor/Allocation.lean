import ByteCursor.Bytes

set_option autoImplicit false

namespace ByteCursor

structure Refusal where
  requested : Nat
  capacity : Nat
  deriving Repr, DecidableEq

def Refusal.message (r : Refusal) : String :=
  s!"cannot grow buffer of {r.capacity} bytes by {r.requested} bytes"

inductive CursorError
  | emptyText
  | refused (refusal : Refusal)
  deriving Repr, DecidableEq

def CursorError.message : CursorError → String
  | emptyText => "cursor input must not be empty"
  | refused refusal => refusal.message

-- Whether a request for so many bytes is granted.
abbrev Allocator := Nat → Bool

namespace Allocator

-- A new buffer of no bytes is there without a request.
def starts (allocator : Allocator) (size : Nat) : Bool := size == 0 || allocator size

def reserved (allocator : Allocator) (room : Nat) (text : Bytes) : Except CursorError Bytes :=
  if allocator.starts room then .ok text else .error (.refused ⟨room, 0⟩)

end Allocator

end ByteCursor
