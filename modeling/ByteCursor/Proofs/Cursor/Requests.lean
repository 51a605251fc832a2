import ByteCursor.Proofs.Cursor.Scanned

set_option autoImplicit false

namespace ByteCursor

variable {σ : Type}

structure Request where
  cursor : Cursor
  count : Nat
  allocator : Allocator

namespace Request

def attempt (r : Request) : Attempt := r.cursor.reserve r.allocator r.count

def step (r : Request) : Nat := max r.count r.cursor.growth

def wanted (r : Request) : Nat := r.cursor.capacity + r.step

def refusal (r : Request) : Refusal := ⟨r.step, r.cursor.capacity⟩

structure Growing (r : Request) : Prop where
  short : r.cursor.remaining < r.count
  addressable : r.wanted < 2 ^ 64

inductive Answered (r : Request) : Attempt → Prop
  | fits (room : r.count ≤ r.cursor.remaining) : Answered r (.done r.cursor)
  | unaddressable (short : r.cursor.remaining < r.count) (past : 2 ^ 64 ≤ r.wanted) :
      Answered r ⟨.error r.refusal, r.cursor, []⟩
  | limited (growing : r.Growing) (past : r.cursor.options.allows r.wanted = false) :
      Answered r ⟨.error r.refusal, r.cursor, [.limitReached r.wanted]⟩
  | unallocated (growing : r.Growing) (allowed : r.cursor.options.allows r.wanted)
      (refused : r.allocator r.step = false) :
      Answered r ⟨.error r.refusal, r.cursor, [.allocatorRefused r.step]⟩
  | grown (growing : r.Growing) (allowed : r.cursor.options.allows r.wanted)
      (granted : r.allocator r.step) :
      Answered r ⟨.ok (), r.cursor.grown r.step, [.grew r.cursor.capacity r.wanted]⟩

theorem attempt_eq (r : Request) : r.attempt =
    if r.count ≤ r.cursor.remaining then .done r.cursor
    else if 2 ^ 64 ≤ r.wanted then ⟨.error r.refusal, r.cursor, []⟩
    else if !r.cursor.options.allows r.wanted then
      ⟨.error r.refusal, r.cursor, [.limitReached r.wanted]⟩
    else if !r.allocator r.step then ⟨.error r.refusal, r.cursor, [.allocatorRefused r.step]⟩
    else ⟨.ok (), r.cursor.grown r.step, [.grew r.cursor.capacity r.wanted]⟩ := rfl

theorem answered (r : Request) : r.Answered r.attempt := by
  rw [attempt_eq]
  split
  · next room => exact .fits room
  · next more =>
      have short : r.cursor.remaining < r.count := Nat.lt_of_not_le more
      split
      · next past => exact .unaddressable short past
      · next addressable =>
          have growing : r.Growing := ⟨short, Nat.lt_of_not_le addressable⟩
          split
          · next past => exact .limited growing (by simpa using past)
          · next allowed =>
              have allowed : r.cursor.options.allows r.wanted := by simpa using allowed
              split
              · next refused => exact .unallocated growing allowed (by simpa using refused)
              · next granted => exact .grown growing allowed (by simpa using granted)

theorem Answered.attempt_eq {r : Request} {attempt : Attempt} (answered : r.Answered attempt) :
    r.attempt = attempt := by
  rw [Request.attempt_eq]
  cases answered with
  | fits room => exact if_pos room
  | unaddressable short past => rw [if_neg (Nat.not_le_of_lt short), if_pos past]
  | limited growing past =>
      rw [if_neg (Nat.not_le_of_lt growing.short), if_neg (Nat.not_le_of_lt growing.addressable),
        if_pos (by simp [past])]
  | unallocated growing allowed refused =>
      rw [if_neg (Nat.not_le_of_lt growing.short), if_neg (Nat.not_le_of_lt growing.addressable),
        if_neg (by simp [allowed]), if_pos (by simp [refused])]
  | grown growing allowed granted =>
      rw [if_neg (Nat.not_le_of_lt growing.short), if_neg (Nat.not_le_of_lt growing.addressable),
        if_neg (by simp [allowed]), if_neg (by simp [granted])]

theorem refused_cursor (r : Request) {refusal : Refusal}
    (refused : r.attempt.answer = .error refusal) : r.attempt.cursor = r.cursor := by
  have answered := r.answered
  generalize r.attempt = attempt at answered refused
  cases answered with
  | grown => cases refused
  | _ => rfl

theorem attempt_options (r : Request) : r.attempt.cursor.options = r.cursor.options := by
  have answered := r.answered
  generalize r.attempt = attempt at answered
  cases answered <;> rfl

end Request

structure Trial where
  cursor : Cursor
  part : Part

namespace Trial

def attempt (t : Trial) : Attempt := t.cursor.append t.part.allocator t.part.bytes

def request (t : Trial) : Request := ⟨t.cursor, t.part.bytes.length, t.part.allocator⟩

theorem attempt_eq (t : Trial) :
    t.attempt = t.request.attempt.andThen fun c => .done (c.overwritten t.part.bytes) := rfl

theorem attempt_cases (t : Trial) :
    (∃ refusal, t.request.attempt.answer = .error refusal ∧ t.attempt = t.request.attempt) ∨
      (t.request.attempt.answer = .ok () ∧ t.attempt =
        ⟨.ok (), t.request.attempt.cursor.overwritten t.part.bytes, t.request.attempt.log⟩) := by
  cases answer : t.request.attempt.answer with
  | error refusal => exact .inl ⟨refusal, rfl, t.attempt_eq.trans (Attempt.andThen_refused answer)⟩
  | ok =>
      refine .inr ⟨rfl, ?_⟩
      rw [attempt_eq, Attempt.andThen, answer]
      simp [Attempt.done]

theorem attempt_answer (t : Trial) : t.attempt.answer = t.request.attempt.answer := by
  rcases t.attempt_cases with ⟨_, _, same⟩ | ⟨granted, same⟩
  · rw [same]
  · rw [same, granted]

theorem attempt_log (t : Trial) : t.attempt.log = t.request.attempt.log := by
  rcases t.attempt_cases with ⟨_, _, same⟩ | ⟨_, same⟩ <;> rw [same]

theorem refused_cursor (t : Trial) {refusal : Refusal}
    (refused : t.attempt.answer = .error refusal) : t.attempt.cursor = t.cursor := by
  rw [t.attempt_answer] at refused
  rcases t.attempt_cases with ⟨_, _, same⟩ | ⟨granted, _⟩
  · rw [same]
    exact t.request.refused_cursor refused
  · rw [granted] at refused
    cases refused

theorem attempt_options (t : Trial) : t.attempt.cursor.options = t.cursor.options := by
  rcases t.attempt_cases with ⟨_, _, same⟩ | ⟨_, same⟩ <;> rw [same] <;>
    exact t.request.attempt_options

end Trial

namespace Cursor

variable {c : Cursor}

def tried : List Part → Cursor → List Trial
  | [], _ => []
  | part :: parts, c =>
      let trial : Trial := ⟨c, part⟩
      trial ::
        match trial.attempt.answer with
        | .error _ => []
        | .ok _ => tried parts trial.attempt.cursor

theorem appendParts_refused {part : Part} {refusal : Refusal} (parts : List Part)
    (refused : (Trial.mk c part).attempt.answer = .error refusal) :
    c.tried (part :: parts) = [⟨c, part⟩] ∧
      c.appendParts (part :: parts) = (Trial.mk c part).attempt := by
  refine ⟨?_, Attempt.andThen_refused refused⟩
  simp only [tried, refused]

theorem appendParts_granted {part : Part} (parts : List Part)
    (granted : (Trial.mk c part).attempt.answer = .ok ()) :
    let next := (Trial.mk c part).attempt.cursor
    c.tried (part :: parts) = ⟨c, part⟩ :: next.tried parts ∧
      c.appendParts (part :: parts) =
        { next.appendParts parts with
          log := (Trial.mk c part).attempt.log ++ (next.appendParts parts).log } := by
  refine ⟨?_, ?_⟩
  · simp only [tried, granted]
  · have appended : c.appendParts (part :: parts) =
        (Trial.mk c part).attempt.andThen (appendParts parts) := rfl
    rw [appended, Attempt.andThen, granted]

theorem tried_parts (parts : List Part) (c : Cursor) : ∀ t ∈ c.tried parts, t.part ∈ parts := by
  induction parts generalizing c with
  | nil => simp [tried]
  | cons part parts ih =>
      cases answer : (Trial.mk c part).attempt.answer with
      | error refusal =>
          rw [(appendParts_refused parts answer).1]
          simp
      | ok =>
          rw [(appendParts_granted parts answer).1]
          exact List.forall_mem_cons.mpr ⟨List.mem_cons_self,
            fun t mem => List.mem_cons_of_mem part (ih _ t mem)⟩

theorem appendParts_log (parts : List Part) (c : Cursor) :
    (c.appendParts parts).log = (c.tried parts).flatMap fun t => t.request.attempt.log := by
  induction parts generalizing c with
  | nil => rfl
  | cons part parts ih =>
      cases answer : (Trial.mk c part).attempt.answer with
      | error refusal =>
          obtain ⟨tried, appended⟩ := appendParts_refused parts answer
          rw [tried, appended, Trial.attempt_log, List.flatMap_singleton]
      | ok =>
          obtain ⟨tried, appended⟩ := appendParts_granted parts answer
          rw [tried, appended, List.flatMap_cons, ← ih, Trial.attempt_log]

theorem tried_cases (parts : List Part) (c : Cursor) :
    ((c.appendParts parts).answer = .ok () ∧
        ∀ t ∈ c.tried parts, t.attempt.answer = .ok ()) ∨
      ∃ front last refusal, c.tried parts = front ++ [last] ∧
        (∀ t ∈ front, t.attempt.answer = .ok ()) ∧ last.attempt.answer = .error refusal ∧
        (c.appendParts parts).answer = .error refusal ∧
        (c.appendParts parts).cursor = last.cursor := by
  induction parts generalizing c with
  | nil => exact .inl ⟨rfl, by simp [tried]⟩
  | cons part parts ih =>
      cases answer : (Trial.mk c part).attempt.answer with
      | error refusal =>
          obtain ⟨tried, appended⟩ := appendParts_refused parts answer
          refine .inr ⟨[], ⟨c, part⟩, refusal, tried, by simp, answer, ?_, ?_⟩
          · rw [appended, answer]
          · rw [appended]
            exact Trial.refused_cursor _ answer
      | ok =>
          obtain ⟨tried, appended⟩ := appendParts_granted parts answer
          rw [tried, appended]
          rcases ih (Trial.mk c part).attempt.cursor with
            ⟨granted, others⟩ | ⟨front, last, refusal, others, granted, ended⟩
          · exact .inl ⟨granted, List.forall_mem_cons.mpr ⟨answer, others⟩⟩
          · refine .inr ⟨⟨c, part⟩ :: front, last, refusal, ?_, ?_, ended⟩
            · rw [List.cons_append, ← others]
            · exact List.forall_mem_cons.mpr ⟨answer, granted⟩

end Cursor

namespace Call

def trials (call : Call σ) (c : Cursor) : List Trial :=
  c.tried (call.parts c.options.significantDigits.toNat)

def requests (call : Call σ) (c : Cursor) : List Request :=
  match call.operation with
  | .reserve count => [⟨c, count, call.allocators 0⟩]
  | _ => (call.trials c).map Trial.request

inductive Does (call : Call σ) : Prop
  | append
      (performs : ∀ c : Cursor, call.perform c =
        Cursor.attempted (c.appendParts (call.parts c.options.significantDigits.toNat)))
      (asks : ∀ c, call.requests c = (call.trials c).map Trial.request)
  | reserve (count : Nat)
      (performs : ∀ c : Cursor, call.perform c =
        Cursor.attempted (Request.attempt ⟨c, count, call.allocators 0⟩))
      (asks : ∀ c, call.requests c = [⟨c, count, call.allocators 0⟩])
  | move
      (performs : ∀ c : Cursor, ∃ reply position, (∀ result, reply ≠ .attempted result) ∧
        ∀ d : Cursor, d.buffer = c.buffer → d.position = c.position →
          call.perform d = ⟨reply, { d with position := position }, []⟩)
      (asks : ∀ c, call.requests c = [])

variable (call : Call σ)

theorem scan_does (scan : call.operation.isScan) : call.Does := by
  have asks : ∀ c, call.requests c = [] := by
    obtain ⟨op, allocators⟩ := call
    cases op with
    | append | appendQuoted | appendNumber | reserve => cases scan
    | _ => exact fun _ => rfl
  refine .move (fun c => ?_) asks
  obtain ⟨reply, distance, scanned⟩ := exists_scanned scan c.rest
  refine ⟨reply, c.position + distance, scanned.unattempted, fun d buffer position => ?_⟩
  have here : d.rest = c.rest := by rw [Cursor.rest, buffer, position, Cursor.rest]
  rw [Cursor.call_performs call here scanned, Cursor.moved, position]

theorem does : call.Does := by
  by_cases scan : call.operation.isScan
  · exact scan_does call scan
  · obtain ⟨op, allocators⟩ := call
    cases op with
    | reset =>
        exact .move (fun c => ⟨.done, 0, by simp, fun _ _ _ => rfl⟩) fun _ => rfl
    | reserve count => exact .reserve count (fun _ => rfl) fun _ => rfl
    | append | appendQuoted | appendNumber => exact .append (perform_parts rfl) fun _ => rfl
    | _ => exact absurd rfl scan

variable (c : Cursor)

theorem requests_allocator : ∀ r ∈ call.requests c, ∃ part, r.allocator = call.allocators part := by
  cases call.does with
  | append _ asks =>
      rw [asks]
      refine List.forall_mem_map.mpr fun t mem => ?_
      exact call.allocator_parts _ t.part (Cursor.tried_parts _ c t mem)
  | reserve count _ asks =>
      rw [asks]
      exact List.forall_mem_singleton.mpr ⟨0, rfl⟩
  | move _ asks =>
      rw [asks]
      simp

theorem log_eq : (call.perform c).log = (call.requests c).flatMap fun r => r.attempt.log := by
  cases call.does with
  | append performs asks =>
      rw [performs, asks, List.flatMap_map]
      exact Cursor.appendParts_log _ c
  | reserve count performs asks =>
      rw [performs, asks, List.flatMap_singleton]
      rfl
  | move performs asks =>
      obtain ⟨reply, position, _, performs⟩ := performs c
      rw [performs c rfl rfl, asks]
      rfl

theorem requests_cases :
    ((∀ refusal, (call.perform c).answer ≠ .attempted (.error refusal)) ∧
        ∀ r ∈ call.requests c, r.attempt.answer = .ok ()) ∨
      ∃ front last refusal, call.requests c = front ++ [last] ∧
        (∀ r ∈ front, r.attempt.answer = .ok ()) ∧ last.attempt.answer = .error refusal ∧
        (call.perform c).answer = .attempted (.error refusal) ∧
        (call.perform c).cursor = last.cursor := by
  cases call.does with
  | append performs asks =>
      rw [performs, asks]
      have granted : ∀ trials : List Trial, (∀ t ∈ trials, t.attempt.answer = .ok ()) →
          ∀ r ∈ trials.map Trial.request, r.attempt.answer = .ok () :=
        fun trials granted => List.forall_mem_map.mpr fun t mem =>
          t.attempt_answer.symm.trans (granted t mem)
      rcases Cursor.tried_cases (call.parts _) c with
        ⟨answer, whole⟩ | ⟨front, last, refusal, tried, others, refused, answer, ended⟩
      · exact .inl ⟨by simp [Cursor.attempted, answer], granted _ whole⟩
      · refine .inr ⟨front.map Trial.request, last.request, refusal, ?_, granted _ others,
          last.attempt_answer.symm.trans refused, congrArg Reply.attempted answer, ended⟩
        rw [trials, tried, List.map_append, List.map_singleton]
  | reserve count performs asks =>
      rw [performs, asks]
      cases answer : (Request.mk c count (call.allocators 0)).attempt.answer with
      | error refusal =>
          exact .inr ⟨[], _, refusal, rfl, by simp, answer, congrArg Reply.attempted answer,
            Request.refused_cursor _ answer⟩
      | ok => exact .inl ⟨by simp [Cursor.attempted, answer], by simpa using answer⟩
  | move performs asks =>
      obtain ⟨reply, position, unattempted, performs⟩ := performs c
      rw [performs c rfl rfl, asks]
      exact .inl ⟨fun _ => unattempted _, by simp⟩

end Call

structure SameRoom (c d : Cursor) : Prop where
  capacity : d.capacity = c.capacity
  growth : d.growth = c.growth
  options : d.options = c.options

theorem SameRoom.refl (c : Cursor) : SameRoom c c := ⟨rfl, rfl, rfl⟩

theorem SameRoom.trans {a b c : Cursor} (first : SameRoom a b) (second : SameRoom b c) :
    SameRoom a c :=
  ⟨second.capacity.trans first.capacity, second.growth.trans first.growth,
    second.options.trans first.options⟩

inductive Linked : Cursor → List Request → Cursor → Prop
  | done {c d : Cursor} (same : SameRoom c d) : Linked c [] d
  | request {c d : Cursor} (r : Request) {later : List Request} (same : SameRoom c r.cursor)
      (linked : Linked r.attempt.cursor later d) : Linked c (r :: later) d

namespace Linked

variable {a b c : Cursor} {first second : List Request}

theorem sooner (same : SameRoom a b) (linked : Linked b second c) : Linked a second c := by
  cases linked with
  | done later => exact .done (same.trans later)
  | request r later linked => exact .request r (same.trans later) linked

theorem append (earlier : Linked a first b) (later : Linked b second c) :
    Linked a (first ++ second) c := by
  induction earlier with
  | done same => exact sooner same later
  | request r same _ ih => exact .request r same (ih later)

theorem options (linked : Linked a first b) : ∀ r ∈ first, r.cursor.options = a.options := by
  induction linked with
  | done => simp
  | request r same _ ih =>
      refine List.forall_mem_cons.mpr ⟨same.options, fun other mem => ?_⟩
      rw [ih other mem, r.attempt_options, same.options]

end Linked

namespace Trial

theorem attempt_inside (t : Trial) (inside : t.cursor.position ≤ t.cursor.capacity) :
    t.attempt.cursor.position ≤ t.attempt.cursor.capacity :=
  Cursor.changes_inside (Cursor.append_changes t.part.allocator t.part.bytes t.cursor inside) inside

theorem request_inside (t : Trial) (inside : t.cursor.position ≤ t.cursor.capacity) :
    t.request.attempt.cursor.position ≤ t.request.attempt.cursor.capacity :=
  Cursor.changes_inside
    (Cursor.reserve_changes t.part.allocator t.part.bytes.length t.cursor) inside

theorem attempt_sameRoom (t : Trial) (inside : t.cursor.position ≤ t.cursor.capacity) :
    SameRoom t.request.attempt.cursor t.attempt.cursor := by
  rcases t.attempt_cases with ⟨_, _, same⟩ | ⟨granted, same⟩
  · rw [same]
    exact .refl _
  · have room := Cursor.remaining_of_reserve t.part.allocator _ t.cursor inside granted
    rw [same]
    exact ⟨Cursor.capacity_overwritten _ _ (t.request_inside inside) room, rfl, rfl⟩

end Trial

namespace Cursor

variable {c : Cursor}

theorem tried_linked (parts : List Part) (inside : c.position ≤ c.capacity) :
    Linked c ((c.tried parts).map Trial.request) (c.appendParts parts).cursor := by
  induction parts generalizing c with
  | nil => exact .done (.refl c)
  | cons part parts ih =>
      have room := (Trial.mk c part).attempt_sameRoom inside
      cases answer : (Trial.mk c part).attempt.answer with
      | error refusal =>
          obtain ⟨tried, appended⟩ := appendParts_refused parts answer
          rw [tried, appended]
          exact .request _ (.refl c) (.done room)
      | ok =>
          obtain ⟨tried, appended⟩ := appendParts_granted parts answer
          rw [tried, appended]
          exact .request _ (.refl c) (.sooner room (ih (Trial.attempt_inside _ inside)))

theorem call_linked (call : Call σ) (inside : c.position ≤ c.capacity) :
    Linked c (call.requests c) (call.perform c).cursor := by
  cases call.does with
  | append performs asks =>
      rw [performs, asks]
      exact tried_linked _ inside
  | reserve count performs asks =>
      rw [performs, asks]
      exact .request _ (.refl c) (.done (.refl _))
  | move performs asks =>
      obtain ⟨reply, position, _, performs⟩ := performs c
      rw [performs c rfl rfl, asks]
      exact .done ⟨rfl, rfl, rfl⟩

def requests : Cursor → List (Call σ) → List Request
  | _, [] => []
  | c, call :: calls => call.requests c ++ requests (call.perform c).cursor calls

theorem requests_linked (calls : List (Call σ)) (inside : c.position ≤ c.capacity) :
    Linked c (c.requests calls) (c.after calls) := by
  induction calls generalizing c with
  | nil => exact .done (.refl c)
  | cons call calls ih =>
      exact (call_linked call inside).append (ih (call_inside call inside))

end Cursor

end ByteCursor
