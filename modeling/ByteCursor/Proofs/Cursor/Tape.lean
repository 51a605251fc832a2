import ByteCursor.Proofs.Cursor.Requests
import Mathlib.Data.List.GetD

set_option autoImplicit false

/-!
# What appends leave alone

A buffer is the front of an endless tape of fill bytes. Growth only shows more of the tape, and a
part of an append that goes in changes it between the position before it and the one after it.
-/

namespace ByteCursor

variable {σ : Type}

def Origin.bytes : Origin → Bytes
  | text bytes => bytes
  | capacity size => List.replicate size.toNat ' '.toUInt8
  | options given => List.replicate given.initialCapacity.toNat given.fillByte

def Origin.fillByte : Origin → UInt8
  | options given => given.fillByte
  | _ => ' '.toUInt8

def Trial.span? (t : Trial) : Option (Nat × Nat) :=
  match t.attempt.answer with
  | .error _ => none
  | .ok _ => some (t.cursor.position, t.attempt.cursor.position)

def Call.spans (call : Call σ) (c : Cursor) : List (Nat × Nat) :=
  (call.trials c).filterMap Trial.span?

def Uncovered (spans : List (Nat × Nat)) (index : Nat) : Prop :=
  ∀ span ∈ spans, index < span.1 ∨ span.2 ≤ index

namespace Cursor

variable {c : Cursor} {index : Nat}

def spans : Cursor → List (Call σ) → List (Nat × Nat)
  | _, [] => []
  | c, call :: calls => call.spans c ++ spans (call.perform c).cursor calls

theorem cursor_bytes {origin : Origin} {allocator : Allocator}
    (made : origin.cursor allocator = .ok c) :
    c.buffer = origin.bytes ∧ c.options.fillByte = origin.fillByte := by
  cases origin with
  | text bytes =>
      obtain ⟨_, buffer, _, _, options⟩ := ofText_cases made
      exact ⟨buffer, by rw [options]; rfl⟩
  | capacity size | options given =>
      obtain ⟨_, _, rfl⟩ := withOptions_cases made
      exact ⟨rfl, rfl⟩

def tape (c : Cursor) (index : Nat) : UInt8 := c.buffer.getD index c.options.fillByte

theorem buffer_tape (inside : index < c.capacity) : c.buffer[index]? = some (c.tape index) := by
  rw [tape, List.getD_eq_getElem _ _ inside, List.getElem?_eq_getElem inside]

theorem tape_grown (step : Nat) (c : Cursor) : (c.grown step).tape = c.tape := by
  funext index
  unfold tape
  by_cases inside : index < c.buffer.length
  · exact List.getD_append _ _ _ _ inside
  · have past := Nat.le_of_not_lt inside
    rw [List.getD_eq_default _ _ past]
    change (c.buffer ++ List.replicate step c.options.fillByte).getD index c.options.fillByte = _
    rw [List.getD_append_right _ _ _ _ past, List.getD_eq_getElem?_getD, List.getElem?_replicate]
    split <;> rfl

theorem tape_overwritten (text : Bytes) (inside : c.position ≤ c.capacity)
    (outside : index < c.position ∨ c.position + text.length ≤ index) :
    (c.overwritten text).tape index = c.tape index := by
  have written := c.length_written inside
  have position : (c.written ++ text).length = c.position + text.length := by simp [written]
  have whole := c.written_append_rest
  change (c.written ++ text ++ c.rest.drop text.length).getD index c.options.fillByte =
    c.buffer.getD index c.options.fillByte
  rcases outside with before | after
  · rw [List.append_assoc, List.getD_append _ _ _ _ (by omega), ← whole,
      List.getD_append _ _ _ _ (by omega)]
  · rw [List.getD_append_right _ _ _ _ (by omega), position, ← whole,
      List.getD_append_right _ _ _ _ (by omega), written]
    simp only [List.getD_eq_getElem?_getD, List.getElem?_drop]
    congr 2
    omega

end Cursor

theorem Request.attempt_tape (r : Request) :
    r.attempt.cursor.tape = r.cursor.tape ∧ r.attempt.cursor.position = r.cursor.position ∧
      r.cursor.buffer <+: r.attempt.cursor.buffer := by
  have answered := r.answered
  generalize r.attempt = attempt at answered
  cases answered with
  | grown => exact ⟨Cursor.tape_grown _ _, rfl, List.prefix_append _ _⟩
  | _ => exact ⟨rfl, rfl, List.prefix_rfl⟩

theorem Trial.attempt_tape (t : Trial) (inside : t.cursor.position ≤ t.cursor.capacity)
    {index : Nat} (uncovered : Uncovered ([t].filterMap Trial.span?) index) :
    t.attempt.cursor.tape index = t.cursor.tape index := by
  obtain ⟨tape, position, _⟩ := t.request.attempt_tape
  rcases t.attempt_cases with ⟨_, _, same⟩ | ⟨_, same⟩
  · rw [same, tape]
    rfl
  · let room := t.request.attempt.cursor
    have span : t.span? = some (room.position, room.position + t.part.bytes.length) := by
      rw [span?, same]
      change some (t.request.cursor.position, room.position + t.part.bytes.length) = _
      rw [← position]
    have outside : index < room.position ∨ room.position + t.part.bytes.length ≤ index :=
      uncovered (room.position, room.position + t.part.bytes.length) (by simp [span])
    rw [same, Cursor.tape_overwritten _ (t.request_inside inside) outside, tape]
    rfl

namespace Cursor

variable {c : Cursor} {index : Nat}

theorem uncovered_append {first second : List (Nat × Nat)} :
    Uncovered (first ++ second) index ↔ Uncovered first index ∧ Uncovered second index :=
  List.forall_mem_append

theorem appendParts_tape (parts : List Part) (inside : c.position ≤ c.capacity)
    (uncovered : Uncovered ((c.tried parts).filterMap Trial.span?) index) :
    (c.appendParts parts).cursor.tape index = c.tape index := by
  induction parts generalizing c with
  | nil => rfl
  | cons part parts ih =>
      cases answer : (Trial.mk c part).attempt.answer with
      | error refusal =>
          obtain ⟨_, appended⟩ := appendParts_refused parts answer
          rw [appended, Trial.refused_cursor _ answer]
      | ok =>
          obtain ⟨tried, appended⟩ := appendParts_granted parts answer
          rw [tried, ← List.singleton_append, List.filterMap_append, uncovered_append] at uncovered
          rw [appended]
          exact (ih (Trial.attempt_inside _ inside) uncovered.2).trans
            (Trial.attempt_tape _ inside uncovered.1)

theorem call_tape (call : Call σ) (inside : c.position ≤ c.capacity)
    (uncovered : Uncovered (call.spans c) index) :
    (call.perform c).cursor.tape index = c.tape index := by
  cases call.does with
  | append performs =>
      rw [performs]
      exact appendParts_tape _ inside uncovered
  | reserve count performs =>
      rw [performs]
      exact congrFun (Request.attempt_tape _).1 index
  | move performs =>
      obtain ⟨reply, position, _, performs⟩ := performs c
      rw [performs c rfl rfl]
      rfl

theorem after_tape (calls : List (Call σ)) (inside : c.position ≤ c.capacity)
    (uncovered : Uncovered (c.spans calls) index) : (c.after calls).tape index = c.tape index := by
  induction calls generalizing c with
  | nil => rfl
  | cons call calls ih =>
      rw [spans, uncovered_append] at uncovered
      exact (ih (call_inside call inside) uncovered.2).trans (call_tape call inside uncovered.1)

theorem move_buffer (call : Call σ) (moves : call.operation.isScan ∨ call.operation.isReset) :
    (call.perform c).cursor.buffer = c.buffer := by
  rcases moves with scan | reset
  · obtain ⟨reply, distance, scanned⟩ := exists_scanned scan c.rest
    rw [call_performs call rfl scanned]
    rfl
  · obtain ⟨op, allocators⟩ := call
    cases op with
    | reset => rfl
    | _ => cases reset

theorem reserve_buffer (call : Call σ) {count : Nat} (asked : call.operation = .reserve count) :
    c.buffer <+: (call.perform c).cursor.buffer := by
  obtain ⟨op, allocators⟩ := call
  subst asked
  exact (Request.mk c count (allocators 0)).attempt_tape.2.2

/-- A byte that no part of an append has gone in over is the one that was there at the start, or a
fill byte where the buffer has grown since. -/
theorem kept_where_uncovered {origin : Origin} {allocator : Allocator} {start : Cursor}
    (made : origin.cursor allocator = .ok start) (calls : List (Call σ)) :
    let final := start.after calls
    (∀ index < final.capacity, Uncovered (start.spans calls) index →
      (index < origin.bytes.length → final.buffer[index]? = origin.bytes[index]?) ∧
      (origin.bytes.length ≤ index → final.buffer[index]? = some origin.fillByte)) ∧
    ∀ call : Call σ,
      (call.operation.isScan ∨ call.operation.isReset →
        (call.perform final).cursor.buffer = final.buffer) ∧
      (∀ count, call.operation = .reserve count →
        final.buffer <+: (call.perform final).cursor.buffer) ∧
      ∀ t ∈ call.trials final, ∀ refusal, t.attempt.answer = .error refusal →
        t.attempt.cursor = t.cursor := by
  obtain ⟨bytes, fill⟩ := cursor_bytes made
  refine ⟨fun index within uncovered => ?_, fun call => ⟨move_buffer call,
    fun count => reserve_buffer call, fun t _ refusal => t.refused_cursor⟩⟩
  have kept := after_tape calls (cursor_bounded made).inside uncovered
  rw [buffer_tape within, kept, tape, bytes, fill]
  refine ⟨fun before => ?_, fun past => ?_⟩
  · rw [List.getD_eq_getElem _ _ before, List.getElem?_eq_getElem before]
  · rw [List.getD_eq_default _ _ past]

-- The text of a quoted append makes the buffer grow and its closing quote is refused. What was in
-- front of the opening one stays, and what a reservation adds after a reset is blank.
def strayCalls : List (Call Unit) :=
  [⟨.bytes 3, fun _ _ => true⟩, ⟨.appendQuoted (utf8 "cdef"), fun part _ => part != 2⟩,
    ⟨.reset, fun _ _ => true⟩, ⟨.reserve 10, fun _ _ => true⟩]

theorem kept_where_uncovered_stray :
    ∃ start, (Origin.text (utf8 "a(b)")).cursor (fun _ => true) = .ok start ∧
      (start.after strayCalls).capacity = 18 ∧ start.spans strayCalls = [(3, 4), (4, 8)] ∧
      (start.after strayCalls).buffer[1]? = some 40 ∧
      (start.after strayCalls).buffer[12]? = some 32 := by
  let start : Cursor := ⟨utf8 "a(b)", 0, 0, { initialCapacity := 4 }⟩
  have made : (Origin.text (utf8 "a(b)")).cursor (fun _ => true) = .ok start := rfl
  have grown : (start.after strayCalls).capacity = 18 := by decide
  have spans : start.spans strayCalls = [(3, 4), (4, 8)] := by decide
  have kept := (kept_where_uncovered made strayCalls).1
  rw [grown, spans] at kept
  refine ⟨start, made, grown, spans, ?_, ?_⟩
  · exact (kept 1 (by decide) (by simp [Uncovered])).1 (by decide)
  · exact (kept 12 (by decide) (by simp [Uncovered])).2 (by decide)

end Cursor

end ByteCursor
