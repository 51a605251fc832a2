import ByteCursor.Proofs.Cursor.Requests

set_option autoImplicit false

namespace ByteCursor

variable {σ : Type} {looser : Option Size}

def Cursor.relimited (limit : Option Size) (c : Cursor) : Cursor :=
  { c with options := { c.options with maxCapacity := limit } }

def Outcome.relimited {α : Type} (limit : Option Size) (outcome : Outcome α) : Outcome α :=
  { outcome with cursor := outcome.cursor.relimited limit }

def Request.relimited (limit : Option Size) (r : Request) : Request :=
  { r with cursor := r.cursor.relimited limit }

def Trial.relimited (limit : Option Size) (t : Trial) : Trial :=
  { t with cursor := t.cursor.relimited limit }

def Looser (limit : Option Size) (options : Options) : Prop :=
  ∀ size, options.allows size → { options with maxCapacity := limit }.allows size

theorem looser_of_le {options : Options} {limit : Size}
    (limited : options.maxCapacity = some limit)
    (loose : ∀ other, looser = some other → limit ≤ other) : Looser looser options := by
  intro size allowed
  have below : size ≤ limit.toNat := by simpa [Options.allows, limited] using allowed
  cases looser with
  | none => rfl
  | some other => simpa [Options.allows] using Nat.le_trans below (loose other rfl)

structure Request.PastLimit (r : Request) : Prop where
  growing : r.Growing
  past : r.cursor.options.allows r.wanted = false

instance (r : Request) : Decidable r.PastLimit :=
  decidable_of_iff (r.cursor.remaining < r.count ∧ r.wanted < 2 ^ 64 ∧
      r.cursor.options.allows r.wanted = false)
    ⟨fun ⟨short, addressable, past⟩ => ⟨⟨short, addressable⟩, past⟩,
      fun past => ⟨past.growing.short, past.growing.addressable, past.past⟩⟩

namespace Request

variable {r : Request}

theorem PastLimit.refused (past : r.PastLimit) : r.attempt.answer = .error r.refusal := by
  rw [(Answered.limited past.growing past.past).attempt_eq]

theorem not_pastLimit (granted : r.attempt.answer = .ok ()) : ¬ r.PastLimit := by
  intro past
  rw [past.refused] at granted
  cases granted

theorem PastLimit.limit_lt (past : r.PastLimit) {limit : Size}
    (limited : r.cursor.options.maxCapacity = some limit) :
    limit.toNat < r.refusal.requested + r.refusal.capacity := by
  have not_allowed := past.past
  simp only [Options.allows, limited] at not_allowed
  have above : limit.toNat < r.cursor.capacity + r.step :=
    Nat.lt_of_not_le (of_decide_eq_false not_allowed)
  rwa [Nat.add_comm] at above

theorem attempt_relimited (loose : Looser looser r.cursor.options) (free : ¬ r.PastLimit) :
    (r.relimited looser).attempt = r.attempt.relimited looser := by
  have answered := r.answered
  generalize r.attempt = attempt at answered
  apply Answered.attempt_eq
  cases answered with
  | fits room => exact .fits room
  | unaddressable short past => exact .unaddressable short past
  | limited growing past => exact absurd ⟨growing, past⟩ free
  | unallocated growing allowed refused =>
      exact .unallocated ⟨growing.short, growing.addressable⟩ (loose _ allowed) refused
  | grown growing allowed granted =>
      exact .grown ⟨growing.short, growing.addressable⟩ (loose _ allowed) granted

end Request

theorem Attempt.andThen_relimited {first : Attempt} {next next_looser : Cursor → Attempt}
    (same : first.answer = .ok () →
      next_looser (first.cursor.relimited looser) = (next first.cursor).relimited looser) :
    Attempt.andThen (first.relimited looser) next_looser =
      (first.andThen next).relimited looser := by
  cases answer : first.answer with
  | error refusal =>
      rw [andThen_refused answer]
      exact andThen_refused answer
  | ok =>
      simp only [andThen, Outcome.relimited, answer, same answer]

namespace Trial

variable {t : Trial}

theorem attempt_relimited (loose : Looser looser t.cursor.options) (free : ¬ t.request.PastLimit) :
    (t.relimited looser).attempt = t.attempt.relimited looser := by
  have same : (t.relimited looser).request.attempt = t.request.attempt.relimited looser :=
    Request.attempt_relimited loose free
  rw [attempt_eq, same, attempt_eq]
  exact Attempt.andThen_relimited fun _ => rfl

end Trial

namespace Cursor

variable {c : Cursor}

theorem appendParts_relimited (parts : List Part) (loose : Looser looser c.options)
    (free : ∀ t ∈ c.tried parts, ¬ t.request.PastLimit) :
    (c.relimited looser).appendParts parts = (c.appendParts parts).relimited looser := by
  induction parts generalizing c with
  | nil => rfl
  | cons part parts ih =>
      have same := Trial.attempt_relimited loose (free ⟨c, part⟩ List.mem_cons_self)
      change (Trial.relimited looser ⟨c, part⟩).attempt.andThen (appendParts parts) =
        ((Trial.mk c part).attempt.andThen (appendParts parts)).relimited looser
      rw [same]
      refine Attempt.andThen_relimited fun granted => ?_
      rw [(appendParts_granted parts granted).1] at free
      exact ih (Trial.attempt_options ⟨c, part⟩ ▸ loose) (List.forall_mem_cons.mp free).2

theorem tried_relimited (parts : List Part) (loose : Looser looser c.options) {front : List Trial}
    {last : Trial} (tried : c.tried parts = front ++ [last])
    (free : ∀ t ∈ front, ¬ t.request.PastLimit) :
    (front ++ [last]).map (Trial.relimited looser) <+: (c.relimited looser).tried parts := by
  induction parts generalizing c front with
  | nil => simp [Cursor.tried] at tried
  | cons part parts ih =>
      cases front with
      | nil =>
          obtain ⟨rfl, _⟩ := List.cons_eq_cons.mp tried
          exact List.cons_prefix_cons.mpr ⟨rfl, List.nil_prefix⟩
      | cons first front =>
          -- What this limit does not refuse, a looser one answers in the same way.
          obtain ⟨here, later⟩ := List.forall_mem_cons.mp free
          obtain ⟨rfl, others⟩ := List.cons_eq_cons.mp tried
          have same := Trial.attempt_relimited loose here
          cases answer : (Trial.mk c part).attempt.answer with
          | error refusal => simp [answer] at others
          | ok =>
              simp only [answer] at others
              have granted : (Trial.relimited looser ⟨c, part⟩).attempt.answer = .ok () := by
                rw [same]
                exact answer
              have further := ih (Trial.attempt_options ⟨c, part⟩ ▸ loose) others later
              rw [(appendParts_granted (c := c.relimited looser) parts granted).1]
              refine List.cons_prefix_cons.mpr ⟨rfl, ?_⟩
              change _ <+: Cursor.tried parts (Trial.relimited looser ⟨c, part⟩).attempt.cursor
              rw [same]
              exact further

end Cursor

namespace Call

variable {call : Call σ} {c : Cursor}

theorem perform_relimited (loose : Looser looser c.options)
    (free : ∀ r ∈ call.requests c, ¬ r.PastLimit) :
    call.perform (c.relimited looser) = (call.perform c).relimited looser := by
  cases call.does with
  | append performs asks =>
      rw [asks] at free
      rw [performs, performs]
      exact congrArg Cursor.attempted
        (Cursor.appendParts_relimited _ loose fun t mem => free _ (List.mem_map_of_mem mem))
  | reserve count performs asks =>
      rw [asks] at free
      rw [performs, performs]
      exact congrArg Cursor.attempted
        (Request.attempt_relimited loose (free _ (List.mem_singleton_self _)))
  | move performs =>
      obtain ⟨reply, position, _, performs⟩ := performs c
      rw [performs c rfl rfl, performs (c.relimited looser) rfl rfl]
      rfl

theorem requests_relimited (loose : Looser looser c.options) {front : List Request}
    {last : Request} (asked : call.requests c = front ++ [last])
    (free : ∀ r ∈ front, ¬ r.PastLimit) :
    (front ++ [last]).map (Request.relimited looser) <+: call.requests (c.relimited looser) := by
  cases call.does with
  | append _ asks =>
      rw [asks] at asked ⊢
      obtain ⟨before, rest, tried, rfl, lasts⟩ := List.map_eq_append_iff.mp asked
      obtain ⟨t, rfl, rfl⟩ := List.map_eq_singleton_iff.mp lasts
      have further := Cursor.tried_relimited _ loose tried fun t mem =>
        free _ (List.mem_map_of_mem mem)
      have mapped := further.map Trial.request
      rw [List.map_map] at mapped
      rw [← List.map_singleton, ← List.map_append, List.map_map]
      exact mapped
  | reserve count _ asks =>
      rw [asks] at asked ⊢
      obtain ⟨rfl, rfl⟩ : front = [] ∧ last = ⟨c, count, call.allocators 0⟩ := by
        cases front <;> simp_all
      exact List.prefix_rfl
  | move _ asks =>
      rw [asks] at asked
      simp at asked

theorem pastLimit_last {refused : Request} (asked : refused ∈ call.requests c)
    (past : refused.PastLimit) :
    ∃ front, call.requests c = front ++ [refused] ∧ (∀ r ∈ front, r.attempt.answer = .ok ()) ∧
      (call.perform c).answer = .attempted (.error refused.refusal) ∧
      (call.perform c).cursor = refused.cursor := by
  rcases call.requests_cases c with
    ⟨_, granted⟩ | ⟨front, last, refusal, requests, granted, answer, ended⟩
  · exact absurd past (Request.not_pastLimit (granted refused asked))
  · obtain rfl : refused = last := by
      rw [requests, List.mem_append, List.mem_singleton] at asked
      rcases asked with before | rfl
      · exact absurd past (Request.not_pastLimit (granted refused before))
      · rfl
    obtain rfl : refused.refusal = refusal := Except.error.inj (past.refused.symm.trans answer)
    exact ⟨front, requests, granted, ended⟩

end Call

namespace Cursor

variable {c : Cursor}

def outcomes : Cursor → List (Call σ) → List (Outcome (Reply σ))
  | _, [] => []
  | c, call :: calls => call.perform c :: outcomes (call.perform c).cursor calls

theorem outcomes_relimited (calls : List (Call σ)) (loose : Looser looser c.options)
    (inside : c.position ≤ c.capacity) (free : ∀ r ∈ c.requests calls, ¬ r.PastLimit) :
    (c.relimited looser).outcomes calls = (c.outcomes calls).map (Outcome.relimited looser) ∧
      (c.relimited looser).after calls = (c.after calls).relimited looser := by
  induction calls generalizing c with
  | nil => exact ⟨rfl, rfl⟩
  | cons call calls ih =>
      obtain ⟨here, later⟩ := List.forall_mem_append.mp free
      have same := Call.perform_relimited loose here
      have others := ih (call_options call inside ▸ loose) (call_inside call inside) later
      refine ⟨?_, ?_⟩
      · rw [outcomes, same, outcomes, List.map_cons]
        exact congrArg _ others.1
      · change (call.perform (c.relimited looser)).cursor.after calls = _
        rw [same]
        exact others.2

theorem withOptions_relimited {allocator : Allocator} {options : Options} {start : Cursor}
    (made : withOptions allocator options = .ok start) (loose : Looser looser options) :
    withOptions allocator { options with maxCapacity := looser } =
      .ok (start.relimited looser) := by
  obtain ⟨allowed, granted, rfl⟩ := withOptions_cases made
  have allowed_looser := loose _ allowed
  simp [withOptions, allowed_looser, granted, relimited]

/-- Under a tighter limit a run does the same up to the first growth that this limit refuses, which
may be the one for a part of a quoted append. -/
theorem limit_only_refuses {allocator : Allocator} {options : Options} {limit : Size}
    {start : Cursor} (limited : options.maxCapacity = some limit)
    (made : withOptions allocator options = .ok start) (looser : Option Size)
    (no_tighter : ∀ other, looser = some other → limit ≤ other) :
    let free := start.relimited looser
    withOptions allocator { options with maxCapacity := looser } = .ok free ∧
    ∀ calls : List (Call σ), (∀ r ∈ start.requests calls, ¬ r.PastLimit) →
      free.outcomes calls = (start.outcomes calls).map (Outcome.relimited looser) ∧
      free.after calls = (start.after calls).relimited looser ∧
      ∀ call : Call σ, ∀ refused ∈ call.requests (start.after calls), refused.PastLimit →
        ∃ front, call.requests (start.after calls) = front ++ [refused] ∧
          (∀ r ∈ front, r.attempt.answer = .ok () ∧
            (r.relimited looser).attempt = r.attempt.relimited looser) ∧
          (front ++ [refused]).map (Request.relimited looser) <+:
            call.requests (free.after calls) ∧
          (call.perform (start.after calls)).cursor = refused.cursor ∧
          ∃ refusal,
            (call.perform (start.after calls)).answer = .attempted (.error refusal) ∧
            limit.toNat < refusal.requested + refusal.capacity := by
  intro free
  have same_options : start.options = options := by rw [(withOptions_cases made).2.2]
  have loose : Looser looser options := looser_of_le limited no_tighter
  have inside : start.position ≤ start.capacity := by
    rw [(withOptions_cases made).2.2]
    exact Nat.zero_le _
  refine ⟨withOptions_relimited made loose, fun calls unlimited => ?_⟩
  obtain ⟨outcomes, same⟩ := outcomes_relimited calls (same_options ▸ loose) inside unlimited
  refine ⟨outcomes, same, fun call refused asked past => ?_⟩
  have here : (start.after calls).options = options :=
    (after_options calls inside).trans same_options
  have options_asked : ∀ r ∈ call.requests (start.after calls), r.cursor.options = options :=
    fun r mem => ((call_linked call (after_inside calls inside)).options r mem).trans here
  obtain ⟨front, requests, granted, answered, ended⟩ := Call.pastLimit_last asked past
  refine ⟨front, requests, fun r mem => ⟨granted r mem, ?_⟩, ?_, ended, _, answered,
    past.limit_lt ?_⟩
  · exact Request.attempt_relimited (options_asked r (by simp [requests, mem]) ▸ loose)
      (Request.not_pastLimit (granted r mem))
  · rw [same]
    exact Call.requests_relimited (here ▸ loose) requests fun r mem =>
      Request.not_pastLimit (granted r mem)
  · rw [options_asked refused asked, limited]

-- Six bytes at most, against no limit: what cannot be addressed is refused to both, and the opening
-- quote and the text go in on both before the closing quote is refused to one.
def sixOptions : Options := { initialCapacity := 2, maxCapacity := some 6 }

def sixStart : Cursor := ⟨[32, 32], 0, 2, sixOptions⟩

def sixCalls : List (Call Unit) :=
  [⟨.append (utf8 "abc"), fun _ _ => true⟩, ⟨.reserve (2 ^ 64 - 1), fun _ _ => true⟩]

def sixQuote : Call Unit := ⟨.appendQuoted (utf8 "x"), fun _ _ => true⟩

theorem limit_only_refuses_past_six :
    withOptions (fun _ => true) sixOptions = .ok sixStart ∧
      (sixStart.relimited none).outcomes sixCalls =
        (sixStart.outcomes sixCalls).map (Outcome.relimited none) ∧
      (sixQuote.requests (sixStart.after sixCalls)).length = 3 ∧
      (sixQuote.perform (sixStart.after sixCalls)).cursor.position = 5 ∧
      ∃ refusal, (sixQuote.perform (sixStart.after sixCalls)).answer =
          .attempted (.error refusal) ∧ 6 < refusal.requested + refusal.capacity := by
  have made : withOptions (fun _ => true) sixOptions = .ok sixStart := rfl
  obtain ⟨_, alike⟩ := limit_only_refuses (σ := Unit) rfl made none (by simp)
  obtain ⟨outcomes, _, refuses⟩ := alike sixCalls (by decide)
  have three : (sixQuote.requests (sixStart.after sixCalls)).length = 3 := by decide
  have past : ((sixQuote.requests (sixStart.after sixCalls)).get ⟨2, by decide⟩).PastLimit := by
    decide
  obtain ⟨_, _, _, _, ended, refusal, answer, above⟩ :=
    refuses sixQuote _ (List.get_mem _ _) past
  refine ⟨made, outcomes, three, ?_, refusal, answer, above⟩
  rw [ended]
  decide

end Cursor

end ByteCursor
