import ByteCursor.Cursor.Operation
import ByteCursor.Numeric.Fixed
import ByteCursor.Text.Utf8

set_option autoImplicit false

namespace ByteCursor

variable {σ : Type}

inductive Start
  | text (bytes : Bytes)
  | blank (size : UInt8) (limit : Option UInt16)
  deriving Repr, DecidableEq

def Start.cursor (allocator : Allocator) : Start → Except CursorError Cursor
  | text bytes => Cursor.ofText bytes
  | blank size limit =>
      Cursor.withOptions allocator
        { initialCapacity := size.toUInt64
          maxCapacity := limit.map UInt16.toUInt64 }

structure Scenario (σ : Type) where
  start : Start
  operations : List (Operation σ)
  deriving Repr

structure Report where
  held : Bool
  log : List Record
  number : Option (Except CursorError Bytes)
  deriving Repr

namespace Scenario

def moveHeld (before after : Nat) : Operation σ → Reply σ → Bool
  | .delimited .., .bytes none => after == before
  | .bytes _, .bytes none => after == before
  | .bytes _, .bytes (some found) => after == before + found.length
  | .numericRun, .bytes (some run) => after + 1 == before + run.length
  | .accept _, .accepted false => after == before
  | _, _ => true

def held (before : Cursor) (op : Operation σ) (outcome : Outcome (Reply σ)) : Bool :=
  let after := outcome.cursor
  moveHeld before.position after.position op outcome.answer &&
    after.position ≤ after.capacity && before.growth ≤ after.growth

def finish (allocator : Allocator) (c : Cursor) : Report :=
  match textOf? c.written with
  | none => ⟨true, [], none⟩
  | some text =>
      ⟨true, numberLog text, (readNumber (utf8 text)).toOption.map (fixedText allocator)⟩

def drive (allocator : Allocator) : Cursor → List (Operation σ) → Report
  | c, [] => finish allocator c
  | c, op :: ops =>
      let outcome := c.perform allocator op
      if held c op outcome then
        let others := drive allocator outcome.cursor ops
        { others with log := outcome.log ++ others.log }
      else ⟨false, outcome.log, none⟩

def run (allocator : Allocator) (s : Scenario σ) : Report :=
  match s.start.cursor allocator with
  | .error _ => ⟨true, [], none⟩
  | .ok c => drive allocator c s.operations

end Scenario

end ByteCursor
