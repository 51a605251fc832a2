import ByteCursor.Proofs.Cursor.Requests
import Mathlib.Algebra.GroupWithZero.Nat

set_option autoImplicit false

/-!
# What growth leaves unused

The growth step is the largest request that ever made the buffer grow, and the steps taken add up to
the buffer. A blank buffer that is only written to has at most one step left behind the position,
because an append overwrites what it asked for; a bare reservation does not, and can leave two.
-/

namespace ByteCursor

variable {σ : Type}

def Request.grows (r : Request) : Bool := r.cursor.capacity < r.attempt.cursor.capacity

namespace Request

variable (r : Request)

theorem grows_cases :
    (r.grows = false ∧ r.attempt.cursor = r.cursor) ∨
      (r.grows ∧ r.Growing ∧ r.attempt.answer = .ok () ∧
        r.attempt.cursor = r.cursor.grown r.step) := by
  have answered := r.answered
  unfold grows
  generalize r.attempt = attempt at answered
  cases answered with
  | grown growing =>
      have short := growing.short
      have step : 0 < r.step := Nat.lt_of_lt_of_le (Nat.zero_lt_of_lt short) (Nat.le_max_left _ _)
      refine .inr ⟨?_, growing, rfl, rfl⟩
      rw [decide_eq_true_eq, Cursor.capacity_grown]
      omega
  | _ => exact .inl ⟨decide_eq_false (Nat.lt_irrefl _), rfl⟩

theorem growth_le_step : r.cursor.growth ≤ r.step := Nat.le_max_right _ _

end Request

namespace Linked

variable {c d : Cursor} {requests : List Request}

theorem growth_eq (linked : Linked c requests d) :
    d.growth = ((requests.filter Request.grows).map Request.count).foldl max c.growth := by
  induction linked with
  | done same => exact same.growth
  | request r same _ ih =>
      rw [ih]
      rcases r.grows_cases with ⟨level, stays⟩ | ⟨grows, _, _, grown⟩
      · rw [List.filter_cons_of_neg (by simp [level]), stays, same.growth]
      · have step : (r.cursor.grown r.step).growth = max r.cursor.growth r.count := Nat.max_comm _ _
        rw [List.filter_cons_of_pos grows, List.map_cons, List.foldl_cons, grown, step, same.growth]

theorem capacity_eq (linked : Linked c requests d) :
    d.capacity = c.capacity + ((requests.filter Request.grows).map Request.step).sum := by
  induction linked with
  | done same => exact same.capacity
  | request r same _ ih =>
      rw [ih, ← same.capacity]
      rcases r.grows_cases with ⟨level, stays⟩ | ⟨grows, _, _, grown⟩
      · rw [List.filter_cons_of_neg (by simp [level]), stays]
      · rw [List.filter_cons_of_pos grows, List.map_cons, List.sum_cons, grown,
          Cursor.capacity_grown, Nat.add_assoc]

theorem growth_le_steps (linked : Linked c requests d) :
    ∀ r ∈ requests.filter Request.grows, c.growth ≤ r.step := by
  induction linked with
  | done => simp
  | request r same _ ih =>
      rw [← same.growth]
      rcases r.grows_cases with ⟨level, stays⟩ | ⟨grows, _, _, grown⟩
      · rw [List.filter_cons_of_neg (by simp [level])]
        exact stays ▸ ih
      · rw [List.filter_cons_of_pos grows]
        rw [grown] at ih
        exact List.forall_mem_cons.mpr
          ⟨r.growth_le_step, fun later mem => Nat.le_trans r.growth_le_step (ih later mem)⟩

theorem steps_sorted (linked : Linked c requests d) :
    ((requests.filter Request.grows).map Request.step).Pairwise (· ≤ ·) := by
  induction linked with
  | done => exact .nil
  | request r same others ih =>
      rcases r.grows_cases with ⟨level, _⟩ | ⟨grows, _, _, grown⟩
      · rwa [List.filter_cons_of_neg (by simp [level])]
      · rw [List.filter_cons_of_pos grows, List.map_cons, List.pairwise_cons]
        refine ⟨List.forall_mem_map.mpr ?_, ih⟩
        rw [grown] at others
        exact others.growth_le_steps

end Linked

def Operation.isReserve : Operation σ → Bool
  | reserve _ => true
  | _ => false

namespace Cursor

variable {c : Cursor} {steps : Nat}

structure Spare (steps : Nat) (c : Cursor) : Prop where
  inside : c.position ≤ c.capacity
  spare : c.remaining ≤ steps * c.growth

theorem remaining_overwritten (text : Bytes) (inside : c.position ≤ c.capacity)
    (fits : text.length ≤ c.remaining) :
    (c.overwritten text).remaining = c.remaining - text.length := by
  rw [remaining, capacity_overwritten text c inside fits, remaining, Nat.sub_sub]
  rfl

theorem reserve_spare {r : Request} (two : 2 ≤ steps) (spare : Spare steps r.cursor) :
    Spare steps r.attempt.cursor := by
  rcases r.grows_cases with ⟨_, stays⟩ | ⟨_, growing, _, grown⟩
  · rwa [stays]
  · -- Less than one step was left, or no growth would have been asked for.
    have short : r.cursor.remaining ≤ r.step :=
      Nat.le_trans (Nat.le_of_lt growing.short) (Nat.le_max_left _ _)
    have inside := spare.inside
    rw [grown]
    constructor
    · rw [capacity_grown]
      exact Nat.le_add_right_of_le inside
    · calc (r.cursor.grown r.step).remaining
          = r.cursor.remaining + r.step := remaining_grown _ _ inside
        _ ≤ 2 * r.step := by omega
        _ ≤ steps * r.step := Nat.mul_le_mul_right _ two

theorem trial_spare {t : Trial} (one : 1 ≤ steps) (spare : Spare steps t.cursor) :
    Spare steps t.attempt.cursor := by
  have inside := spare.inside
  rcases t.attempt_cases with ⟨refusal, refused, same⟩ | ⟨granted, same⟩
  · rwa [same, t.request.refused_cursor refused]
  · refine ⟨t.attempt_inside inside, ?_⟩
    have room := remaining_of_reserve t.part.allocator _ t.cursor inside granted
    have left := remaining_overwritten _ (t.request_inside inside) room
    rw [same]
    change (overwritten t.part.bytes t.request.attempt.cursor).remaining ≤
      steps * t.request.attempt.cursor.growth
    rw [left]
    rcases t.request.grows_cases with ⟨_, stays⟩ | ⟨_, growing, _, grown⟩
    · rw [stays]
      exact Nat.le_trans (Nat.sub_le _ _) spare.spare
    · -- The part takes off more than was left before the step.
      have short : t.cursor.remaining < t.part.bytes.length := growing.short
      rw [grown]
      calc (t.cursor.grown t.request.step).remaining - t.part.bytes.length
          = t.cursor.remaining + t.request.step - t.part.bytes.length := by
            rw [remaining_grown _ _ inside]
        _ ≤ 1 * t.request.step := by omega
        _ ≤ steps * t.request.step := Nat.mul_le_mul_right _ one

theorem appendParts_spare {parts : List Part} (one : 1 ≤ steps) (spare : Spare steps c) :
    Spare steps (c.appendParts parts).cursor := by
  induction parts generalizing c with
  | nil => exact spare
  | cons part parts ih =>
      have first := trial_spare (t := ⟨c, part⟩) one spare
      cases answer : (Trial.mk c part).attempt.answer with
      | error refusal =>
          rw [(appendParts_refused parts answer).2]
          exact first
      | ok =>
          rw [(appendParts_granted parts answer).2]
          exact ih first

theorem scan_spare {call : Call σ} (scan : call.operation.isScan) (spare : Spare steps c) :
    Spare steps (call.perform c).cursor := by
  obtain ⟨reply, distance, scanned⟩ := exists_scanned scan c.rest
  have inside := call_inside call spare.inside
  rw [call_performs call rfl scanned] at inside ⊢
  refine ⟨inside, Nat.le_trans ?_ spare.spare⟩
  exact Nat.sub_le_sub_left (Nat.le_add_right _ _) _

theorem call_spare {call : Call σ} (stays : call.operation.isReset = false)
    (one : 1 ≤ steps) (two : call.operation.isReserve → 2 ≤ steps) (spare : Spare steps c) :
    Spare steps (call.perform c).cursor := by
  have alone : ∀ allocator text, Spare steps (c.append allocator text).cursor :=
    fun allocator text => trial_spare (t := ⟨c, allocator, text⟩) one spare
  by_cases scan : call.operation.isScan
  · exact scan_spare scan spare
  · obtain ⟨op, allocators⟩ := call
    cases op with
    | reset => cases stays
    | reserve count => exact reserve_spare (r := ⟨c, count, allocators 0⟩) (two rfl) spare
    | append | appendNumber => exact alone _ _
    | appendQuoted text => exact appendParts_spare one spare
    | _ => exact absurd rfl scan

theorem after_spare {calls : List (Call σ)} (stays : ∀ call ∈ calls, call.operation.isReset = false)
    (one : 1 ≤ steps) (two : ∀ call ∈ calls, call.operation.isReserve → 2 ≤ steps)
    (spare : Spare steps c) : Spare steps (c.after calls) := by
  induction calls generalizing c with
  | nil => exact spare
  | cons call calls ih =>
      obtain ⟨here, later⟩ := List.forall_mem_cons.mp stays
      obtain ⟨first, others⟩ := List.forall_mem_cons.mp two
      exact ih later others (call_spare here one first spare)

theorem blank_spare {allocator : Allocator} {origin : Origin}
    (made : origin.cursor allocator = .ok c) (blank : origin.isBlank) : Spare 1 c := by
  obtain ⟨_, _, same⟩ := withOptions_cases (blank_cases made blank)
  refine ⟨(cursor_bounded made).inside, ?_⟩
  rw [same]
  simp [remaining, capacity]

def appended : Cursor → List (Call σ) → List Part
  | _, [] => []
  | c, call :: calls =>
      c.entered (call.parts c.options.significantDigits.toNat) ++
        appended (call.perform c).cursor calls

theorem entered_of_tried {parts : List Part} {t : Trial} (tried : t ∈ c.tried parts)
    (granted : t.attempt.answer = .ok ()) : t.part ∈ c.entered parts := by
  induction parts generalizing c with
  | nil => cases tried
  | cons part parts ih =>
      cases answer : (Trial.mk c part).attempt.answer with
      | error refusal =>
          rw [(appendParts_refused parts answer).1, List.mem_singleton] at tried
          rw [tried, answer] at granted
          cases granted
      | ok =>
          have goes : c.entered (part :: parts) =
              part :: (Trial.mk c part).attempt.cursor.entered parts := by
            have answer : (c.append part.allocator part.bytes).answer = .ok () := answer
            simp only [entered, answer]
            rfl
          rw [(appendParts_granted parts answer).1] at tried
          rw [goes, List.mem_cons]
          rcases List.mem_cons.mp tried with rfl | later
          · exact .inl rfl
          · exact .inr (ih later)

theorem grows_for_part {calls : List (Call σ)}
    (bare : ∀ call ∈ calls, call.operation.isReserve = false) :
    ∀ r ∈ (c.requests calls).filter Request.grows,
      ∃ part ∈ c.appended calls, r.count = part.bytes.length := by
  induction calls generalizing c with
  | nil => simp [requests]
  | cons call calls ih =>
      obtain ⟨here, later⟩ := List.forall_mem_cons.mp bare
      have asks : call.requests c = (call.trials c).map Trial.request := by
        unfold Call.requests
        split
        · next count asked => simp [asked, Operation.isReserve] at here
        · rfl
      rw [requests, List.filter_append]
      refine List.forall_mem_append.mpr ⟨fun r asked => ?_, fun r asked => ?_⟩
      · rw [asks, List.mem_filter, List.mem_map] at asked
        obtain ⟨⟨t, tried, rfl⟩, grows⟩ := asked
        rcases t.request.grows_cases with ⟨level, _⟩ | ⟨_, _, granted, _⟩
        · simp [level] at grows
        · have entered := entered_of_tried tried (t.attempt_answer.trans granted)
          exact ⟨t.part, List.mem_append_left _ entered, rfl⟩
      · obtain ⟨part, mem, same⟩ := ih later r asked
        exact ⟨part, List.mem_append_right _ mem, same⟩

theorem le_foldl_max {first n : Nat} {ns : List Nat} (mem : n ∈ first :: ns) :
    n ≤ ns.foldl max first :=
  (List.max?_eq_some_iff.mp List.max?_cons').2 n mem

theorem foldl_max_mem (first : Nat) (ns : List Nat) : ns.foldl max first ∈ first :: ns :=
  (List.max?_eq_some_iff.mp List.max?_cons').1

/-- The growth step is the largest request that made the buffer grow, and the buffer is as long as
its first size with the steps taken. What a blank buffer has left is at most two of them, or one if
nothing but appends made it grow. -/
theorem growth_accounted {origin : Origin} {allocator : Allocator} {start : Cursor}
    (made : origin.cursor allocator = .ok start) (calls : List (Call σ)) :
    let final := start.after calls
    let grown := (start.requests calls).filter Request.grows
    (final.growth = (grown.map Request.count).foldl max start.growth ∧
      final.capacity = start.capacity + (grown.map Request.step).sum ∧
      (grown.map Request.step).Pairwise (· ≤ ·)) ∧
    (origin.isBlank → (∀ call ∈ calls, call.operation.isReset = false) →
      final.remaining ≤ 2 * final.growth ∧
      ((∀ call ∈ calls, call.operation.isReserve = false) →
        let lengths := (start.appended calls).map fun part => part.bytes.length
        final.remaining ≤ final.growth ∧
        final.capacity ≤
          final.position + lengths.foldl max start.options.initialCapacity.toNat)) := by
  intro final grown
  have linked := requests_linked calls (cursor_bounded made).inside
  refine ⟨⟨linked.growth_eq, linked.capacity_eq, linked.steps_sorted⟩,
    fun blank stays => ⟨?_, fun bare => ?_⟩⟩
  · have spare := blank_spare made blank
    have doubled : Spare 2 start := ⟨spare.inside, by have := spare.spare; omega⟩
    exact (after_spare stays (by omega) (by omega) doubled).spare
  · intro lengths
    have one : final.remaining ≤ final.growth := by
      have spare := after_spare stays (Nat.le_refl 1) (by simp_all) (blank_spare made blank)
      simpa using spare.spare
    -- Without reservations a growth step is the first one or the length of a part.
    have growth : final.growth ≤ lengths.foldl max start.options.initialCapacity.toNat := by
      rw [show final.growth = _ from linked.growth_eq, blank_growth made blank]
      rcases List.mem_cons.mp (foldl_max_mem _ _) with first | asked
      · rw [first]
        exact le_foldl_max List.mem_cons_self
      · obtain ⟨r, mem, same⟩ := List.mem_map.mp asked
        obtain ⟨part, entered, length⟩ := grows_for_part bare r mem
        rw [← same, length]
        exact le_foldl_max (List.mem_cons_of_mem _ (List.mem_map_of_mem entered))
    refine ⟨one, ?_⟩
    have inside := after_inside calls (cursor_bounded made).inside
    simp only [remaining] at one
    omega

-- Nine bytes at most, and one to begin with. The first text makes the buffer grow by two, the
-- quoted one by three for its text and by three again for the closing quote, and the last text is
-- refused.
def nineOptions : Options := { initialCapacity := 1, maxCapacity := some 9 }

def nineStart : Cursor := ⟨[32], 0, 1, nineOptions⟩

def nineCalls : List (Call Unit) :=
  [⟨.append (utf8 "ab"), fun _ _ => true⟩, ⟨.appendQuoted (utf8 "cde"), fun _ _ => true⟩,
    ⟨.byte, fun _ _ => true⟩, ⟨.append (utf8 "fghi"), fun _ _ => true⟩]

theorem growth_accounted_nine :
    (Origin.options nineOptions).cursor (fun _ => true) = .ok nineStart ∧
      (nineStart.after nineCalls).growth = 3 ∧ (nineStart.after nineCalls).capacity = 9 ∧
      (nineStart.after nineCalls).remaining ≤ (nineStart.after nineCalls).growth ∧
      (nineStart.after nineCalls).capacity ≤ (nineStart.after nineCalls).position + 3 := by
  have made : (Origin.options nineOptions).cursor (fun _ => true) = .ok nineStart := rfl
  obtain ⟨⟨growth, capacity, _⟩, blank⟩ := growth_accounted made nineCalls
  obtain ⟨_, bare⟩ := blank rfl (by decide)
  obtain ⟨one, ends⟩ := bare (by decide)
  exact ⟨made, growth.trans (by decide), capacity.trans (by decide), one, ends⟩

end Cursor

end ByteCursor
