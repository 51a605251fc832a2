import ByteCursor.Proofs.Cursor.Written
import Mathlib.Data.List.DropRight

set_option autoImplicit false

namespace ByteCursor

variable {σ : Type}

namespace Operation

def isReset : Operation σ → Bool
  | reset => true
  | _ => false

def isBuilding : Operation σ → Bool
  | reset | reserve _ | append _ | appendQuoted _ | appendNumber _ => true
  | _ => false

end Operation

namespace Call

def contribution (wanted : Nat) (call : Call σ) (c : Cursor) : Bytes :=
  match (call.perform c).answer with
  | .attempted (.ok _) => call.operation.contribution wanted
  | .attempted (.error _) => ((c.entered (call.parts wanted)).map Part.bytes).flatten
  | _ => []

end Call

namespace Cursor

def history (wanted : Nat) : Cursor → List (Call σ) → List (Operation σ × Bytes)
  | _, [] => []
  | c, call :: calls =>
      (call.operation, call.contribution wanted c) :: history wanted (call.perform c).cursor calls

def sinceReset (history : List (Operation σ × Bytes)) : Bytes :=
  (history.rtakeWhile fun entry => !entry.1.isReset).flatMap Prod.snd

variable {c : Cursor}

theorem call_options (call : Call σ) (inside : c.position ≤ c.capacity) :
    (call.perform c).cursor.options = c.options :=
  (call_onward call inside).options

theorem append_adds {call : Call σ} (appends : call.operation.isAppend)
    (inside : c.position ≤ c.capacity) :
    (call.perform c).cursor.written =
      c.written ++ call.contribution c.options.significantDigits.toNat c := by
  let parts := call.parts c.options.significantDigits.toNat
  have performed : call.perform c = attempted (c.appendParts parts) := call.perform_parts appends c
  rw [Call.contribution, performed]
  change (c.appendParts parts).cursor.written = _
  rw [appendParts_written _ inside]
  cases answer : (c.appendParts parts).answer with
  | ok => simp only [attempted, answer, entered_of_granted answer, ← call.bytes_parts, parts]
  | error refusal => simp only [attempted, answer, parts]

theorem reserve_adds (allocators : Nat → Allocator) (count : Nat)
    (inside : c.position ≤ c.capacity) (wanted : Nat) :
    let call : Call σ := ⟨.reserve count, allocators⟩
    (call.perform c).cursor.written = c.written ++ call.contribution wanted c := by
  intro call
  have none : call.contribution wanted c = [] := by
    have performed : call.perform c = attempted (c.reserve (allocators 0) count) := rfl
    rw [Call.contribution, performed]
    cases answer : (c.reserve (allocators 0) count).answer <;>
      simp [attempted, answer, call, Operation.contribution, Call.parts, entered]
  rw [none, List.append_nil]
  exact reserve_written (allocators 0) count inside

theorem call_written (call : Call σ) (building : call.operation.isBuilding)
    (inside : c.position ≤ c.capacity) :
    (call.perform c).cursor.written =
      if call.operation.isReset then []
      else c.written ++ call.contribution c.options.significantDigits.toNat c := by
  obtain ⟨op, allocators⟩ := call
  cases op with
  | reset => rfl
  | reserve count => exact reserve_adds allocators count inside _
  | append | appendQuoted | appendNumber => exact append_adds rfl inside
  | _ => cases building

theorem after_options (calls : List (Call σ)) (inside : c.position ≤ c.capacity) :
    (c.after calls).options = c.options :=
  (after_onward calls inside).options

def Reachable (c : Cursor) : Prop :=
  ∃ (σ : Type) (origin : Origin) (allocator : Allocator) (start : Cursor) (calls : List (Call σ)),
    origin.cursor allocator = .ok start ∧ start.after calls = c

theorem Reachable.inside (reached : c.Reachable) : c.position ≤ c.capacity := by
  obtain ⟨σ, origin, allocator, start, calls, made, rfl⟩ := reached
  exact after_inside calls (cursor_bounded made).inside

theorem after_concat (c : Cursor) (calls : List (Call σ)) (call : Call σ) :
    c.after (calls ++ [call]) = (call.perform (c.after calls)).cursor := by
  rw [after_append]
  rfl

theorem history_concat (wanted : Nat) (c : Cursor) (calls : List (Call σ)) (call : Call σ) :
    c.history wanted (calls ++ [call]) = c.history wanted calls ++
      [(call.operation, call.contribution wanted (c.after calls))] := by
  induction calls generalizing c with
  | nil => rfl
  | cons first calls ih =>
      simp only [List.cons_append, history, ih]
      rfl

theorem sinceReset_concat (history : List (Operation σ × Bytes)) (op : Operation σ)
    (bytes : Bytes) : sinceReset (history ++ [(op, bytes)]) =
      if op.isReset then [] else sinceReset history ++ bytes := by
  unfold sinceReset
  rw [List.rtakeWhile_concat]
  cases op.isReset <;> simp

/-- What is written at any point is what the calls since the last reset have added, and the position
is behind it. -/
theorem written_since_reset {origin : Origin} {allocator : Allocator} {start : Cursor}
    (made : origin.cursor allocator = .ok start) {calls : List (Call σ)}
    (building : ∀ call ∈ calls, call.operation.isBuilding) :
    let contents := sinceReset (start.history start.options.significantDigits.toNat calls)
    (start.after calls).written = contents ∧ (start.after calls).position = contents.length := by
  have inside := (cursor_bounded made).inside
  have written : (start.after calls).written =
      sinceReset (start.history start.options.significantDigits.toNat calls) := by
    induction calls using List.reverseRecOn with
    | nil =>
        change start.buffer.take start.position = []
        rw [cursor_start made, List.take_zero]
    | append_singleton calls call ih =>
        obtain ⟨earlier, last⟩ := List.forall_mem_append.mp building
        rw [after_concat, history_concat, sinceReset_concat, ← ih earlier,
          call_written call (last call (List.mem_singleton_self call)) (after_inside calls inside),
          after_options calls inside]
  refine ⟨written, ?_⟩
  rw [← written, length_written _ (after_inside calls inside)]

-- Six bytes at most. After a reset, the closing quote is refused the room that the opening one was
-- given, the limit refuses an infinity, and the next text goes in where the quote would have been.
theorem written_since_reset_refused :
    let options : Options := { initialCapacity := 2, maxCapacity := some 6 }
    let start : Cursor := ⟨utf8 "  ", 0, 2, options⟩
    let granting : Nat → Allocator := fun _ _ => true
    let refusing : Nat → Allocator := fun part _ => part != 2
    let calls : List (Call Unit) := [⟨.append (utf8 "k"), granting⟩, ⟨.reset, granting⟩,
      ⟨.append (utf8 "ab"), granting⟩, ⟨.appendQuoted (utf8 "c"), refusing⟩,
      ⟨.appendNumber (.infinite false), granting⟩, ⟨.append (utf8 "de"), granting⟩]
    (Origin.options options).cursor (granting 0) = .ok start ∧
      (∀ call ∈ calls, call.operation.isBuilding) ∧
      (start.after calls).written = utf8 "ab\"cde" ∧ (start.after calls).position = 6 := by
  intro options start granting refusing calls
  have made : (Origin.options options).cursor (granting 0) = .ok start := by decide
  have building : ∀ call ∈ calls, call.operation.isBuilding :=
    List.all_eq_true.mp (by decide : calls.all fun call => call.operation.isBuilding)
  obtain ⟨written, position⟩ := written_since_reset made building
  have contents : sinceReset (start.history start.options.significantDigits.toNat calls) =
      utf8 "ab\"cde" := by
    decide
  rw [contents] at written position
  exact ⟨made, building, written, position⟩

end Cursor

end ByteCursor
