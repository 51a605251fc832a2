import ByteCursor.Allocation
import ByteCursor.Options.Basic

set_option autoImplicit false

namespace ByteCursor

structure Cursor where
  buffer : Bytes
  position : Nat
  -- The size of the last growth step.
  growth : Nat
  options : Options
  deriving Repr, DecidableEq

namespace Cursor

def ofText (text : Bytes) : Except CursorError Cursor :=
  if text.isEmpty then .error .emptyText
  else .ok
    { buffer := text
      position := 0
      -- No step until an append needs room.
      growth := 0
      options := { initialCapacity := .ofNat text.length } }

def withOptions (allocator : Allocator) (options : Options) : Except CursorError Cursor :=
  let size := options.initialCapacity.toNat
  if options.allows size && allocator.starts size then
    .ok
      { buffer := List.replicate size options.fillByte
        position := 0
        growth := size
        options := options }
  else .error (.refused ⟨size, 0⟩)

def withCapacity (allocator : Allocator) (size : Size) : Except CursorError Cursor :=
  withOptions allocator { initialCapacity := size }

def capacity (c : Cursor) : Nat := c.buffer.length

def remaining (c : Cursor) : Nat := c.capacity - c.position

def written (c : Cursor) : Bytes := c.buffer.take c.position

def rest (c : Cursor) : Bytes := c.buffer.drop c.position

def peek (c : Cursor) : Option UInt8 := c.rest.head?

def reset (c : Cursor) : Cursor := { c with position := 0 }

def moved (distance : Nat) (c : Cursor) : Cursor := { c with position := c.position + distance }

theorem written_append_rest (c : Cursor) : c.written ++ c.rest = c.buffer :=
  List.take_append_drop ..

@[simp] theorem length_rest (c : Cursor) : c.rest.length = c.remaining := by
  simp [rest, remaining, capacity]

theorem length_written (c : Cursor) (inside : c.position ≤ c.capacity) :
    c.written.length = c.position :=
  List.length_take_of_le inside

end Cursor

end ByteCursor
