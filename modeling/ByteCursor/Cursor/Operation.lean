import ByteCursor.Cursor.Append
import ByteCursor.Cursor.Scan

set_option autoImplicit false

namespace ByteCursor

inductive Operation (σ : Type)
  | byte
  | skipBlanks
  | delimited (opening closing : UInt8)
  | bytes (count : Nat)
  | numericRun
  | number
  | literal (word : Bytes) (sentinel : σ)
  | boolean
  | accept (word : Bytes)
  | reset
  | reserve (count : Nat)
  | append (text : Bytes)
  | appendQuoted (text : Bytes)
  | appendNumber (value : Binary64)
  deriving Repr

inductive Reply (σ : Type)
  | done
  | byte (found : Option UInt8)
  | bytes (found : Option Bytes)
  | number (found : Option Binary64)
  | sentinel (found : Option σ)
  | boolean (found : Option Bool)
  | accepted (found : Bool)
  | attempted (result : Except Refusal Unit)
  deriving Repr

variable {σ : Type}

/-- An operation, and the allocators that its parts ask one after the other. -/
structure Call (σ : Type) where
  operation : Operation σ
  allocators : Nat → Allocator

def Operation.asking (allocator : Allocator) (op : Operation σ) : Call σ := ⟨op, fun _ => allocator⟩

namespace Cursor

variable {α β : Type}

def replied (reply : α → β) (result : α × Cursor) : Outcome β := ⟨reply result.1, result.2, []⟩

def attempted (attempt : Attempt) : Outcome (Reply σ) :=
  { attempt with answer := .attempted attempt.answer }

end Cursor

open Cursor in
def Call.perform (call : Call σ) (c : Cursor) : Outcome (Reply σ) :=
  match call.operation with
  | .byte => replied .byte c.takeByte
  | .skipBlanks => ⟨.done, c.skipBlanks, []⟩
  | .delimited opening closing => replied .bytes (c.takeDelimited opening closing)
  | .bytes count => replied .bytes (c.takeBytes count)
  | .numericRun => replied .bytes c.takeNumericRun
  | .number => replied .number c.takeNumber
  | .literal word sentinel => replied .sentinel (c.takeLiteral word sentinel)
  | .boolean => replied .boolean c.takeBoolean
  | .accept word => replied .accepted (c.accept word)
  | .reset => ⟨.done, c.reset, []⟩
  | .reserve count => attempted (c.reserve (call.allocators 0) count)
  | .append text => attempted (c.append (call.allocators 0) text)
  | .appendQuoted text => attempted (c.appendQuoted call.allocators text)
  | .appendNumber value => attempted (c.appendNumber (call.allocators 0) value)

namespace Cursor

def perform (allocator : Allocator) (c : Cursor) (op : Operation σ) : Outcome (Reply σ) :=
  (op.asking allocator).perform c

def runCalls : Cursor → List (Call σ) → Outcome (List (Reply σ))
  | c, [] => ⟨[], c, []⟩
  | c, call :: calls =>
      let first := call.perform c
      let others := runCalls first.cursor calls
      ⟨first.answer :: others.answer, others.cursor, first.log ++ others.log⟩

def run (allocator : Allocator) (c : Cursor) (ops : List (Operation σ)) :
    Outcome (List (Reply σ)) :=
  c.runCalls (ops.map (Operation.asking allocator))

@[simp] theorem run_nil (allocator : Allocator) (c : Cursor) :
    c.run allocator ([] : List (Operation σ)) = ⟨[], c, []⟩ := rfl

end Cursor

end ByteCursor
