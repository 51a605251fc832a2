import ByteCursor.Proofs.Cursor.Bounds

set_option autoImplicit false

namespace ByteCursor

namespace Attempt

variable {first : Attempt} {next : Cursor → Attempt}

theorem andThen_granted (granted : first.answer = .ok ()) :
    (first.andThen next).answer = (next first.cursor).answer ∧
      (first.andThen next).cursor = (next first.cursor).cursor := by
  rw [andThen, granted]
  exact ⟨rfl, rfl⟩

theorem andThen_refused {refusal : Refusal} (refused : first.answer = .error refusal) :
    first.andThen next = first := by
  rw [andThen, refused]

theorem andThen_done (attempt : Attempt) : attempt.andThen done = attempt := by
  cases answer : attempt.answer with
  | error refusal => exact andThen_refused answer
  | ok =>
      rw [andThen, answer]
      simp only [done, List.append_nil, ← answer]

end Attempt

namespace Operation

variable {σ : Type}

def isAppend : Operation σ → Bool
  | append _ | appendQuoted _ | appendNumber _ => true
  | _ => false

def contribution (wanted : Nat) : Operation σ → Bytes
  | append text => text
  | appendQuoted text => quoteByte :: (text ++ [quoteByte])
  | appendNumber value => writeSignificant wanted value
  | _ => []

end Operation

namespace Call

variable {σ : Type}

def parts (wanted : Nat) (call : Call σ) : List Part :=
  match call.operation with
  | .append text => [⟨call.allocators 0, text⟩]
  | .appendQuoted text => quotedParts call.allocators text
  | .appendNumber value => [⟨call.allocators 0, writeSignificant wanted value⟩]
  | _ => []

theorem perform_parts {call : Call σ} (appends : call.operation.isAppend) (c : Cursor) :
    call.perform c =
      Cursor.attempted (c.appendParts (call.parts c.options.significantDigits.toNat)) := by
  have alone : ∀ part : Part, c.append part.allocator part.bytes = c.appendParts [part] :=
    fun part => (Attempt.andThen_done _).symm
  obtain ⟨op, allocators⟩ := call
  cases op with
  | append text => exact congrArg Cursor.attempted (alone ⟨allocators 0, text⟩)
  | appendQuoted text => rfl
  | appendNumber value => exact congrArg Cursor.attempted (alone ⟨allocators 0, _⟩)
  | _ => cases appends

theorem bytes_parts (call : Call σ) (wanted : Nat) :
    ((call.parts wanted).map Part.bytes).flatten = call.operation.contribution wanted := by
  obtain ⟨op, allocators⟩ := call
  cases op <;> simp [parts, quotedParts, Operation.contribution]

theorem allocator_parts (call : Call σ) (wanted : Nat) :
    ∀ part ∈ call.parts wanted, ∃ i, part.allocator = call.allocators i := by
  obtain ⟨op, allocators⟩ := call
  intro part mem
  cases op with
  | append | appendNumber => exact ⟨0, by rw [List.mem_singleton.mp mem]⟩
  | appendQuoted text =>
      simp only [parts, quotedParts, List.mem_cons, List.not_mem_nil, or_false] at mem
      rcases mem with same | same | same <;> exact ⟨_, by rw [same]⟩
  | _ => cases mem

end Call

namespace Cursor

variable {c : Cursor}

def entered : List Part → Cursor → List Part
  | [], _ => []
  | part :: parts, c =>
      let attempt := c.append part.allocator part.bytes
      match attempt.answer with
      | .error _ => []
      | .ok _ => part :: entered parts attempt.cursor

theorem reserve_written (allocator : Allocator) (count : Nat) (inside : c.position ≤ c.capacity) :
    (c.reserve allocator count).cursor.written = c.written := by
  rcases reserve_cases allocator count c with ⟨_, same⟩ | ⟨_, _, same⟩ | ⟨_, _, same⟩
  · rw [same]
    rfl
  · rw [same]
    exact written_grown _ c inside
  · rw [same]

theorem append_written {allocator : Allocator} {text : Bytes} (inside : c.position ≤ c.capacity)
    (granted : (c.append allocator text).answer = .ok ()) :
    (c.append allocator text).cursor.written = c.written ++ text := by
  rcases append_cases allocator text c inside with ⟨room, made, _, _, same⟩ | ⟨_, refused, _⟩
  · have within : room.position ≤ room.capacity := by
      rw [← made]
      exact changes_inside (reserve_changes allocator text.length c) inside
    rw [same, written_overwritten text room within, ← made, reserve_written _ _ inside]
  · rw [refused] at granted
    cases granted

theorem append_refused {allocator : Allocator} {text : Bytes} {refusal : Refusal}
    (inside : c.position ≤ c.capacity)
    (refused : (c.append allocator text).answer = .error refusal) :
    (c.append allocator text).cursor = c := by
  rcases append_cases allocator text c inside with ⟨_, _, _, granted, _⟩ | ⟨_, _, same⟩
  · rw [granted] at refused
    cases refused
  · exact same

theorem appendParts_written (parts : List Part) (inside : c.position ≤ c.capacity) :
    (c.appendParts parts).cursor.written =
      c.written ++ ((c.entered parts).map Part.bytes).flatten := by
  induction parts generalizing c with
  | nil => simp [appendParts, entered, Attempt.done]
  | cons part parts ih =>
      simp only [appendParts, entered]
      cases answer : (c.append part.allocator part.bytes).answer with
      | error refusal =>
          rw [Attempt.andThen_refused answer, append_refused inside answer]
          simp
      | ok =>
          have within := changes_inside (append_changes part.allocator part.bytes c inside) inside
          rw [(Attempt.andThen_granted answer).2, ih within, append_written inside answer]
          simp

theorem entered_of_granted {parts : List Part} (granted : (c.appendParts parts).answer = .ok ()) :
    c.entered parts = parts := by
  induction parts generalizing c with
  | nil => rfl
  | cons part parts ih =>
      simp only [appendParts] at granted
      simp only [entered]
      cases answer : (c.append part.allocator part.bytes).answer with
      | error refusal =>
          rw [Attempt.andThen_refused answer, answer] at granted
          cases granted
      | ok =>
          rw [(Attempt.andThen_granted answer).1] at granted
          rw [ih granted]

end Cursor

end ByteCursor
