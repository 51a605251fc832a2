import ByteCursor.Proofs.Cursor.Requests

set_option autoImplicit false

namespace ByteCursor

namespace Request

theorem short_granted_iff (r : Request) (short : r.cursor.remaining < r.count) :
    r.attempt.answer = .ok () ↔
      r.wanted < 2 ^ 64 ∧ r.cursor.options.allows r.wanted ∧ r.allocator r.step := by
  have answered := r.answered
  generalize r.attempt = attempt at answered
  cases answered with
  | fits room => omega
  | unaddressable _ past => simp only [Nat.not_lt_of_le past, false_and, reduceCtorEq]
  | limited _ past => simp [past]
  | unallocated _ _ refused => simp [refused]
  | grown growing allowed granted =>
      simp only [growing.addressable, allowed, granted, and_self]

theorem short_granted_cursor (r : Request) (short : r.cursor.remaining < r.count)
    (granted : r.attempt.answer = .ok ()) : r.attempt.cursor = r.cursor.grown r.step := by
  have answered := r.answered
  generalize r.attempt = attempt at answered granted
  cases answered with
  | fits room => omega
  | grown => rfl
  | _ => cases granted

theorem refused_answer (r : Request) (refused : r.attempt.answer ≠ .ok ()) :
    r.attempt.answer = .error r.refusal := by
  have answered := r.answered
  generalize r.attempt = attempt at answered refused
  cases answered with
  | fits | grown => exact absurd rfl refused
  | _ => rfl

end Request

namespace Cursor

variable {c : Cursor}

inductive Appended : Cursor → List Part → Cursor → Prop
  | none (c : Cursor) : Appended c [] c
  | more {c d : Cursor} {part : Part} {parts : List Part}
      (granted : (Trial.mk c part).attempt.answer = .ok ())
      (others : Appended (Trial.mk c part).attempt.cursor parts d) : Appended c (part :: parts) d

theorem appendParts_refused_at {parts : List Part} {refusal : Refusal}
    (refused : (c.appendParts parts).answer = .error refusal) :
    ∃ front part back, parts = front ++ part :: back ∧
      Appended c front (c.appendParts parts).cursor ∧
      (Trial.mk (c.appendParts parts).cursor part).attempt.answer = .error refusal := by
  induction parts generalizing c with
  | nil => cases refused
  | cons part parts ih =>
      cases answer : (Trial.mk c part).attempt.answer with
      | error cause =>
          have appended := (appendParts_refused parts answer).2
          have stays := Trial.refused_cursor _ answer
          rw [appended] at refused ⊢
          rw [stays]
          exact ⟨[], part, parts, rfl, .none c, refused⟩
      | ok =>
          have appended := (appendParts_granted parts answer).2
          rw [appended] at refused ⊢
          obtain ⟨front, failed, back, split, entered, denied⟩ := ih refused
          exact ⟨part :: front, failed, back, congrArg (part :: ·) split, .more answer entered,
            denied⟩

/-- A request is granted if and only if the size it wants can be addressed, is within the limit and
the allocator grants the step; else nothing changes. A quoted append is refused at one of its
parts, and keeps those in front of it. -/
theorem growth_all_or_nothing (reached : c.Reachable) (allocator : Allocator) :
    (∀ count,
      let step := max count c.growth
      let outcome := c.reserve allocator count
      (count ≤ c.remaining → outcome.answer = .ok () ∧ outcome.cursor = c) ∧
      (c.remaining < count →
        (outcome.answer = .ok () ↔ c.capacity + step < 2 ^ 64 ∧
          (∀ limit, c.options.maxCapacity = some limit → c.capacity + step ≤ limit.toNat) ∧
          allocator step) ∧
        (outcome.answer = .ok () →
          outcome.cursor = { c with
            buffer := c.buffer ++ List.replicate step c.options.fillByte
            growth := step } ∧
          count ≤ outcome.cursor.remaining) ∧
        (outcome.answer ≠ .ok () →
          outcome.answer = .error ⟨step, c.capacity⟩ ∧ outcome.cursor = c))) ∧
    (∀ text,
      let outcome := c.append allocator text
      outcome.answer = (c.reserve allocator text.length).answer ∧
      (outcome.answer ≠ .ok () → outcome.cursor = c)) ∧
    (∀ value,
      let outcome := c.appendNumber allocator value
      let length := (writeSignificant c.options.significantDigits.toNat value).length
      outcome.answer = (c.reserve allocator length).answer ∧
      (outcome.answer ≠ .ok () → outcome.cursor = c)) ∧
    ∀ (allocators : Nat → Allocator) text refusal,
      let outcome := c.appendQuoted allocators text
      outcome.answer = .error refusal →
        ∃ front part back,
          [Part.mk (allocators 0) [quoteByte], ⟨allocators 1, text⟩,
            ⟨allocators 2, [quoteByte]⟩] = front ++ part :: back ∧
          Appended c front outcome.cursor ∧
          (outcome.cursor.append part.allocator part.bytes).answer = .error refusal := by
  have once : ∀ text,
      let outcome := c.append allocator text
      outcome.answer = (c.reserve allocator text.length).answer ∧
      (outcome.answer ≠ .ok () → outcome.cursor = c) := by
    intro text outcome
    let trial : Trial := ⟨c, allocator, text⟩
    refine ⟨trial.attempt_answer, fun refused => ?_⟩
    cases answer : outcome.answer with
    | error refusal => exact trial.refused_cursor answer
    | ok => exact absurd answer refused
  refine ⟨fun count => ⟨fun room => ?_, fun short => ?_⟩, once, fun value => once _,
    fun allocators text refusal refused => appendParts_refused_at refused⟩
  · simp [reserve, room, Attempt.done]
  · let r : Request := ⟨c, count, allocator⟩
    have granted_iff := r.short_granted_iff short
    rw [allows_iff] at granted_iff
    refine ⟨granted_iff, fun granted => ⟨r.short_granted_cursor short granted, ?_⟩,
      fun refused => ?_⟩
    · exact remaining_of_reserve allocator count c reached.inside granted
    · have answer := r.refused_answer refused
      exact ⟨answer, r.refused_cursor answer⟩

-- Six bytes at most and a step of four: a request for three is refused, though two more would fit
-- the limit and two remain. Of a quoted text, the closing quote asks for a step.
theorem growth_all_or_nothing_sticky :
    let options : Options := { initialCapacity := 4, maxCapacity := some 6 }
    let c : Cursor := ⟨utf8 "ab  ", 2, 4, options⟩
    let granting : Allocator := fun _ => true
    c.Reachable ∧ (c.reserve granting 3).answer = .error ⟨4, 4⟩ ∧
      (c.reserve granting 3).cursor = c ∧
      (c.appendQuoted (fun _ => granting) (utf8 "x")).cursor.written = utf8 "ab\"x" ∧
      ∃ front part back,
        [Part.mk granting [quoteByte], ⟨granting, utf8 "x"⟩, ⟨granting, [quoteByte]⟩] =
          front ++ part :: back ∧
        Appended c front (c.appendQuoted (fun _ => granting) (utf8 "x")).cursor := by
  intro options c granting
  have reached : c.Reachable :=
    ⟨Unit, .options options, granting, ⟨utf8 "    ", 0, 4, options⟩,
      [⟨.append (utf8 "ab"), fun _ => granting⟩], rfl, rfl⟩
  obtain ⟨request, _, _, quoted⟩ := growth_all_or_nothing reached granting
  obtain ⟨answer, stays⟩ := ((request 3).2 (by decide)).2.2 (by decide)
  obtain ⟨front, part, back, split, entered, _⟩ := quoted (fun _ => granting) (utf8 "x") ⟨4, 4⟩ (by decide)
  exact ⟨reached, answer, stays, by decide, front, part, back, split, entered⟩

end Cursor

end ByteCursor
