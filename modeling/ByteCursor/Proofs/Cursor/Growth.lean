import ByteCursor.Proofs.Cursor.Requests
import Mathlib.Data.List.Chain

set_option autoImplicit false

namespace ByteCursor

variable {σ : Type}

def Record.growth? : Record → Option (Nat × Nat)
  | grew before after => some (before, after)
  | _ => none

def Refusal.records (options : Options) (refusal : Refusal) : List Record :=
  let wanted := refusal.capacity + refusal.requested
  if 2 ^ 64 ≤ wanted then []
  else if options.allows wanted then [.allocatorRefused refusal.requested]
  else [.limitReached wanted]

theorem Refusal.records_level (options : Options) (refusal : Refusal) :
    ∀ record ∈ refusal.records options, record.level = .debug := by
  unfold records
  dsimp only
  split
  · simp
  · split <;> simp [Record.level]

namespace Request

theorem granted_log (r : Request) (granted : r.attempt.answer = .ok ()) :
    ∀ record ∈ r.attempt.log, record.growth?.isSome := by
  have answered := r.answered
  generalize r.attempt = attempt at answered granted
  cases answered with
  | fits => simp [Attempt.done]
  | grown => simp [Record.growth?]
  | _ => cases granted

theorem refusal_records (r : Request) : r.refusal.records r.cursor.options =
    if 2 ^ 64 ≤ r.wanted then []
    else if r.cursor.options.allows r.wanted then [.allocatorRefused r.step]
    else [.limitReached r.wanted] := rfl

theorem refused_log (r : Request) {refusal : Refusal}
    (refused : r.attempt.answer = .error refusal) :
    r.attempt.log = refusal.records r.cursor.options ∧
      (.allocatorRefused refusal.requested ∈ r.attempt.log →
        r.allocator refusal.requested = false) := by
  have answered := r.answered
  generalize r.attempt = attempt at answered refused
  cases answered with
  | fits | grown => cases refused
  | unaddressable short past =>
      cases refused
      rw [refusal_records, if_pos past]
      exact ⟨rfl, by simp⟩
  | limited growing past =>
      cases refused
      rw [refusal_records, if_neg (Nat.not_le_of_lt growing.addressable), if_neg (by simp [past])]
      exact ⟨rfl, by simp⟩
  | unallocated growing allowed denied =>
      cases refused
      rw [refusal_records, if_neg (Nat.not_le_of_lt growing.addressable), if_pos allowed]
      exact ⟨rfl, fun _ => denied⟩

end Request

inductive Growths : Nat → Nat → List (Nat × Nat) → Nat → Prop
  | none (capacity least : Nat) : Growths capacity least [] capacity
  | grew {capacity least last : Nat} (step : Nat) {later : List (Nat × Nat)}
      (larger : least ≤ step) (positive : 0 < step)
      (others : Growths (capacity + step) step later last) :
      Growths capacity least ((capacity, capacity + step) :: later) last

namespace Growths

variable {capacity least last : Nat} {growths : List (Nat × Nat)}

theorem first (all : Growths capacity least growths last) :
    ∀ growth ∈ growths.head?, growth.1 = capacity := by
  cases all with
  | none => simp
  | grew step => simp

theorem ended (all : Growths capacity least growths last) :
    (∀ growth ∈ growths.getLast?, growth.2 = last) ∧ (growths = [] → last = capacity) := by
  induction all with
  | none => simp
  | @grew _ _ _ step later _ _ others ih =>
      refine ⟨?_, by simp⟩
      cases later with
      | nil => simp [ih.2 rfl]
      | cons next later => simpa using ih.1

theorem linked (all : Growths capacity least growths last) :
    growths.IsChain fun earlier later => later.1 = earlier.2 := by
  induction all with
  | none => exact .nil
  | grew step _ _ others ih => exact List.isChain_cons.mpr ⟨others.first, ih⟩

theorem steps (all : Growths capacity least growths last) :
    ∀ growth ∈ growths, growth.1 < growth.2 ∧ least ≤ growth.2 - growth.1 := by
  induction all with
  | none => simp
  | grew step larger positive others ih =>
      refine List.forall_mem_cons.mpr ⟨?_, fun growth mem => ?_⟩
      · dsimp only
        omega
      · obtain ⟨further, no_less⟩ := ih growth mem
        exact ⟨further, Nat.le_trans larger no_less⟩

theorem sorted (all : Growths capacity least growths last) :
    growths.Pairwise fun earlier later => earlier.2 - earlier.1 ≤ later.2 - later.1 := by
  induction all with
  | none => exact .nil
  | grew step _ _ others ih =>
      refine List.pairwise_cons.mpr ⟨fun growth mem => ?_, ih⟩
      rw [Nat.add_sub_cancel_left]
      exact (others.steps growth mem).2

end Growths

theorem Linked.growths {c d : Cursor} {requests : List Request} (linked : Linked c requests d) :
    Growths c.capacity c.growth
      ((requests.flatMap fun r => r.attempt.log).filterMap Record.growth?) d.capacity := by
  induction linked with
  | done same =>
      rw [same.capacity]
      exact .none _ _
  | @request c d r later same _ ih =>
      rw [List.flatMap_cons, List.filterMap_append, ← same.capacity, ← same.growth]
      have answered := r.answered
      generalize r.attempt = attempt at answered ih
      cases answered with
      | grown growing =>
          rw [Cursor.capacity_grown] at ih
          have short := growing.short
          refine .grew r.step (Nat.le_max_right _ _) ?_ ih
          exact Nat.lt_of_lt_of_le (Nat.zero_lt_of_lt short) (Nat.le_max_left _ _)
      | _ => exact ih

namespace Cursor

variable {c : Cursor}

theorem log_eq (c : Cursor) (calls : List (Call σ)) :
    (c.runCalls calls).log = (c.requests calls).flatMap fun r => r.attempt.log := by
  induction calls generalizing c with
  | nil => rfl
  | cons call calls ih =>
      simp only [runCalls, requests, List.flatMap_append, ih, call.log_eq]

theorem log_append (c : Cursor) (earlier later : List (Call σ)) :
    (c.runCalls (earlier ++ later)).log =
      (c.runCalls earlier).log ++ ((c.after earlier).runCalls later).log := by
  induction earlier generalizing c with
  | nil => rfl
  | cons call calls ih =>
      simp only [List.cons_append, runCalls, ih, List.append_assoc]
      rfl

theorem log_growths (calls : List (Call σ)) (inside : c.position ≤ c.capacity) :
    Growths c.capacity c.growth ((c.runCalls calls).log.filterMap Record.growth?)
      (c.after calls).capacity := by
  rw [log_eq]
  exact (requests_linked calls inside).growths

theorem granted_logs {requests : List Request}
    (granted : ∀ r ∈ requests, r.attempt.answer = .ok ()) :
    ∀ record ∈ requests.flatMap (fun r => r.attempt.log), record.growth?.isSome := by
  intro record mem
  obtain ⟨r, asked, logged⟩ := List.mem_flatMap.mp mem
  exact r.granted_log (granted r asked) record logged

theorem call_unrefused_log (call : Call σ)
    (unrefused : ∀ refusal, (call.perform c).answer ≠ .attempted (.error refusal)) :
    ∀ record ∈ (call.perform c).log, record.growth?.isSome := by
  rw [call.log_eq]
  rcases call.requests_cases c with ⟨_, granted⟩ | ⟨_, _, refusal, _, _, _, answer, _⟩
  · exact granted_logs granted
  · exact absurd answer (unrefused refusal)

theorem call_refused_log (call : Call σ) (inside : c.position ≤ c.capacity) {refusal : Refusal}
    (refused : (call.perform c).answer = .attempted (.error refusal)) :
    ∃ grown, (call.perform c).log = grown ++ refusal.records c.options ∧
      (∀ record ∈ grown, record.growth?.isSome) ∧
      (.allocatorRefused refusal.requested ∈ refusal.records c.options →
        ∃ part, call.allocators part refusal.requested = false) := by
  rcases call.requests_cases c with
    ⟨unrefused, _⟩ | ⟨front, last, other, asked, granted, answer, same, ended⟩
  · exact absurd refused (unrefused refusal)
  · obtain rfl : refusal = other := by simpa [refused] using same
    obtain ⟨logged, denied⟩ := last.refused_log answer
    have options : last.cursor.options = c.options := by
      rw [← ended]
      exact call_options call inside
    rw [options] at logged
    refine ⟨_, ?_, granted_logs granted, fun mem => ?_⟩
    · rw [call.log_eq, asked, List.flatMap_append, List.flatMap_singleton, logged]
    · obtain ⟨part, allocator⟩ := call.requests_allocator c last (by simp [asked])
      exact ⟨part, allocator ▸ denied (logged ▸ mem)⟩

/-- The growths that a run logs lead from the first size of the buffer to the last one, and a
refusal is logged last. A size that could not be addressed is refused without a record. -/
theorem log_tells_growth {origin : Origin} {allocator : Allocator} {start : Cursor}
    (made : origin.cursor allocator = .ok start) (calls : List (Call σ)) :
    let final := start.after calls
    let growths := (start.runCalls calls).log.filterMap Record.growth?
    ((∀ growth ∈ growths.head?, growth.1 = start.capacity) ∧
      growths.IsChain (fun earlier later => later.1 = earlier.2) ∧
      (∀ growth ∈ growths.getLast?, growth.2 = final.capacity) ∧
      (growths = [] →
        ∀ earlier, earlier <+: calls → (start.after earlier).capacity = start.capacity) ∧
      (∀ growth ∈ growths, growth.1 < growth.2) ∧
      growths.Pairwise fun earlier later => earlier.2 - earlier.1 ≤ later.2 - later.1) ∧
    ∀ call : Call σ,
      let outcome := call.perform final
      (∀ refusal, outcome.answer = .attempted (.error refusal) →
        ∃ grown, outcome.log = grown ++ refusal.records final.options ∧
          (∀ record ∈ grown, record.growth?.isSome) ∧
          (∀ record ∈ refusal.records final.options, record.level = .debug) ∧
          (.allocatorRefused refusal.requested ∈ refusal.records final.options →
            ∃ part, call.allocators part refusal.requested = false)) ∧
      ((∀ refusal, outcome.answer ≠ .attempted (.error refusal)) →
        ∀ record ∈ outcome.log, record.growth?.isSome) := by
  have inside := (cursor_bounded made).inside
  have all := log_growths calls inside
  refine ⟨⟨all.first, all.linked, all.ended.1, ?_, fun growth mem => (all.steps growth mem).1,
    all.sorted⟩, fun call => ⟨fun refusal refused => ?_, ?_⟩⟩
  · rintro none earlier ⟨later, rfl⟩
    rw [log_append, List.filterMap_append] at none
    exact (log_growths earlier inside).ended.2 (List.append_eq_nil_iff.mp none).1
  · obtain ⟨grown, logged, growths, denied⟩ :=
      call_refused_log call (after_inside calls inside) refused
    exact ⟨grown, logged, growths, refusal.records_level _, denied⟩
  · exact call_unrefused_log call

-- Five bytes at most: the opening quote and the text make the buffer grow, the closing quote does
-- not get the two bytes of the last step.
def narrowOptions : Options := { initialCapacity := 1, maxCapacity := some 5 }

def narrowStart : Cursor := ⟨[32], 0, 1, narrowOptions⟩

def narrowCalls : List (Call Unit) := [⟨.append (utf8 "a"), fun _ _ => true⟩]

def narrowQuote : Call Unit := ⟨.appendQuoted (utf8 "bc"), fun _ _ => true⟩

theorem log_tells_growth_narrow :
    (Origin.options narrowOptions).cursor (fun _ => true) = .ok narrowStart ∧
      (narrowStart.after (narrowCalls ++ [narrowQuote])).capacity = 4 ∧
      ∃ refusal grown,
        (narrowQuote.perform (narrowStart.after narrowCalls)).answer =
          .attempted (.error refusal) ∧
        (narrowQuote.perform (narrowStart.after narrowCalls)).log = grown ++ [.limitReached 6] ∧
        ∀ record ∈ grown, record.growth?.isSome := by
  have made : (Origin.options narrowOptions).cursor (fun _ => true) = .ok narrowStart := rfl
  obtain ⟨⟨_, _, last, _⟩, _⟩ := log_tells_growth made (narrowCalls ++ [narrowQuote])
  have ended : ((narrowStart.runCalls (narrowCalls ++ [narrowQuote])).log.filterMap
      Record.growth?).getLast? = some (2, 4) := by
    decide
  have refused : (narrowQuote.perform (narrowStart.after narrowCalls)).answer =
      .attempted (.error ⟨2, 4⟩) := rfl
  obtain ⟨grown, logged, growths, _⟩ :=
    ((log_tells_growth made narrowCalls).2 narrowQuote).1 _ refused
  have records : Refusal.records (narrowStart.after narrowCalls).options ⟨2, 4⟩ =
      [.limitReached 6] := by
    decide
  exact ⟨made, (last (2, 4) ended).symm, _, grown, refused, records ▸ logged, growths⟩

end Cursor

end ByteCursor
