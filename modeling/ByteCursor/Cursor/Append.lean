import ByteCursor.Cursor.Basic
import ByteCursor.Log
import ByteCursor.Numeric.Significant

set_option autoImplicit false

namespace ByteCursor

attribute [local instance] power

structure Outcome (α : Type) where
  answer : α
  cursor : Cursor
  log : List Record
  deriving Repr

abbrev Attempt := Outcome (Except Refusal Unit)

namespace Attempt

def done (c : Cursor) : Attempt := ⟨.ok (), c, []⟩

def andThen (first : Attempt) (next : Cursor → Attempt) : Attempt :=
  match first.answer with
  | .error _ => first
  | .ok _ =>
      let second := next first.cursor
      { second with log := first.log ++ second.log }

end Attempt

structure Part where
  allocator : Allocator
  bytes : Bytes

def quotedParts (allocators : Nat → Allocator) (text : Bytes) : List Part :=
  [⟨allocators 0, [quoteByte]⟩, ⟨allocators 1, text⟩, ⟨allocators 2, [quoteByte]⟩]

namespace Cursor

def grown (step : Nat) (c : Cursor) : Cursor :=
  { c with
    buffer := c.buffer ++ List.replicate step c.options.fillByte
    growth := step }

@[simp] theorem capacity_grown (step : Nat) (c : Cursor) :
    (c.grown step).capacity = c.capacity + step := by
  simp [grown, capacity]

theorem written_grown (step : Nat) (c : Cursor) (inside : c.position ≤ c.capacity) :
    (c.grown step).written = c.written :=
  List.take_append_of_le_length inside

def overwritten (text : Bytes) (c : Cursor) : Cursor :=
  { c with
    buffer := c.written ++ text ++ c.rest.drop text.length
    position := c.position + text.length }

theorem capacity_overwritten (text : Bytes) (c : Cursor) (inside : c.position ≤ c.capacity)
    (fits : text.length ≤ c.remaining) : (c.overwritten text).capacity = c.capacity := by
  simp only [capacity, overwritten, List.length_append, List.length_drop, length_rest,
    c.length_written inside]
  simp only [remaining, capacity] at *
  omega

theorem written_overwritten (text : Bytes) (c : Cursor) (inside : c.position ≤ c.capacity) :
    (c.overwritten text).written = c.written ++ text :=
  List.take_left' (by simp [c.length_written inside, overwritten])

def reserve (allocator : Allocator) (count : Nat) (c : Cursor) : Attempt :=
  if count ≤ c.remaining then .done c
  else
    let step := max count c.growth
    let wanted := c.capacity + step
    let refused := .error ⟨step, c.capacity⟩
    if 2 ^ (64 : Nat) ≤ wanted then ⟨refused, c, []⟩
    else if !c.options.allows wanted then ⟨refused, c, [.limitReached wanted]⟩
    else if !allocator step then ⟨refused, c, [.allocatorRefused step]⟩
    else ⟨.ok (), c.grown step, [.grew c.capacity wanted]⟩

def append (allocator : Allocator) (text : Bytes) (c : Cursor) : Attempt :=
  (c.reserve allocator text.length).andThen fun c => .done (c.overwritten text)

def appendParts : List Part → Cursor → Attempt
  | [], c => .done c
  | part :: parts, c => (c.append part.allocator part.bytes).andThen (appendParts parts)

def appendQuoted (allocators : Nat → Allocator) (text : Bytes) (c : Cursor) : Attempt :=
  c.appendParts (quotedParts allocators text)

def appendNumber (allocator : Allocator) (value : Binary64) (c : Cursor) : Attempt :=
  c.append allocator (writeSignificant c.options.significantDigits.toNat value)

end Cursor

end ByteCursor
