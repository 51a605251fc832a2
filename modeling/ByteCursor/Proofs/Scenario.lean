import ByteCursor.Proofs.Cursor.Scanned
import ByteCursor.Proofs.Text.Characters
import ByteCursor.Scenario

set_option autoImplicit false

namespace ByteCursor

variable {σ : Type}

structure Checks (before : Cursor) (op : Operation σ) (outcome : Outcome (Reply σ)) : Prop where
  refused : op.isScan → outcome.answer.isRefusal → outcome.cursor.position = before.position
  bytes : ∀ count found, op = .bytes count → outcome.answer = .bytes (some found) →
    outcome.cursor.position = before.position + found.length
  numericRun : ∀ run, op = .numericRun → outcome.answer = .bytes (some run) →
    run ≠ [] ∧ outcome.cursor.position = before.position + (run.length - 1)
  inside : outcome.cursor.position ≤ outcome.cursor.capacity
  growth : before.growth ≤ outcome.cursor.growth

namespace Cursor

variable {c : Cursor}

theorem call_scanned (call : Call σ) (scan : call.operation.isScan) :
    ∃ reply distance, Scanned call.operation c.rest reply distance ∧
      call.perform c = ⟨reply, c.moved distance, []⟩ := by
  obtain ⟨reply, distance, scanned⟩ := exists_scanned scan c.rest
  exact ⟨reply, distance, scanned, call_performs call rfl scanned⟩

theorem call_checks (call : Call σ) (inside : c.position ≤ c.capacity) :
    Checks c call.operation (call.perform c) := by
  have changes := call_changes call inside
  refine ⟨fun scan refused => ?_, fun count found asked answer => ?_, fun run asked answer => ?_,
    changes_inside changes inside, (changes_onward changes inside).growth⟩
  · obtain ⟨reply, distance, scanned, performed⟩ := call_scanned (c := c) call scan
    rw [performed] at refused ⊢
    simp [moved, scanned.stays refused]
  · obtain ⟨reply, distance, scanned, performed⟩ := call_scanned (c := c) call (by rw [asked]; rfl)
    rw [performed] at answer ⊢
    rw [asked] at scanned
    subst answer
    cases scanned
    rfl
  · obtain ⟨reply, distance, scanned, performed⟩ := call_scanned (c := c) call (by rw [asked]; rfl)
    rw [performed] at answer ⊢
    rw [asked] at scanned
    subst answer
    cases scanned with
    | numericRun present => exact ⟨present, rfl⟩

theorem perform_checks (allocator : Allocator) (op : Operation σ) (inside : c.position ≤ c.capacity) :
    Checks c op (c.perform allocator op) :=
  call_checks (op.asking allocator) inside

end Cursor

namespace Scenario

variable {before : Cursor} {op : Operation σ} {outcome : Outcome (Reply σ)}

theorem moveHeld_of_checks (checks : Checks before op outcome) :
    moveHeld before.position outcome.cursor.position op outcome.answer := by
  obtain ⟨answer, after, log⟩ := outcome
  dsimp only
  unfold moveHeld
  split
  · exact beq_iff_eq.mpr (checks.refused rfl rfl)
  · exact beq_iff_eq.mpr (checks.refused rfl rfl)
  · exact beq_iff_eq.mpr (checks.bytes _ _ rfl rfl)
  · next run =>
      obtain ⟨present, position⟩ := checks.numericRun run rfl rfl
      have positive := List.length_pos_iff.mpr present
      dsimp only at position
      exact beq_iff_eq.mpr (by omega)
  · exact beq_iff_eq.mpr (checks.refused rfl rfl)
  · rfl

theorem held_of_checks (checks : Checks before op outcome) : held before op outcome := by
  simp [held, moveHeld_of_checks checks, checks.inside, checks.growth]

theorem finish_held (allocator : Allocator) (c : Cursor) : (finish allocator c).held := by
  unfold finish
  split <;> rfl

theorem drive_eq (allocator : Allocator) {c : Cursor} (ops : List (Operation σ))
    (inside : c.position ≤ c.capacity) :
    let done := c.run allocator ops
    let report := finish allocator done.cursor
    drive allocator c ops = { report with log := done.log ++ report.log } := by
  induction ops generalizing c with
  | nil => rfl
  | cons op ops ih =>
      have checks := Cursor.perform_checks allocator op inside
      simp only [drive, held_of_checks checks, if_true, ih checks.inside, ← List.append_assoc]
      rfl

end Scenario

namespace Checked

def assert (condition : Bool) : Option Unit := if condition then some () else none

def assertMove (before after : Nat) : Operation σ → Reply σ → Option Unit
  | .delimited .., .bytes none => assert (after == before)
  | .bytes _, .bytes none => assert (after == before)
  | .bytes _, .bytes (some found) => do assert (after == (← add before found.length))
  | .numericRun, .bytes (some run) => do
      assert (after == (← sub (← add before run.length) 1))
  | .accept _, .accepted false => assert (after == before)
  | _, _ => some ()

def finish (allocator : Allocator) (c : Cursor) : Option Report := do
  match textOf? (← slice c.buffer 0 c.position) with
  | none => return ⟨true, [], none⟩
  | some text =>
      match ← readNumber (utf8 text) with
      | .error error => return ⟨true, [.rejectedNumber text error], none⟩
      | .ok value => return ⟨true, [], some (.ok (← (fixedText allocator value).toOption))⟩

def drive (allocator : Allocator) : Cursor → List (Operation σ) → Option Report
  | c, [] => finish allocator c
  | c, op :: ops => do
      let outcome ← perform allocator c op
      let after := outcome.cursor
      assertMove c.position after.position op outcome.answer
      assert (after.position ≤ after.capacity)
      assert (c.growth ≤ after.growth)
      let others ← drive allocator after ops
      return { others with log := outcome.log ++ others.log }

def scenario (allocator : Allocator) (s : Scenario σ) : Option Report :=
  match s.start.cursor allocator with
  | .error _ => some ⟨true, [], none⟩
  | .ok c => drive allocator c s.operations

theorem assertMove_of_checks {before : Cursor} {op : Operation σ} {outcome : Outcome (Reply σ)}
    (checks : Checks before op outcome) (small : outcome.cursor.capacity < 2 ^ 63) :
    assertMove before.position outcome.cursor.position op outcome.answer = some () := by
  have inside := checks.inside
  obtain ⟨answer, after, log⟩ := outcome
  dsimp only at *
  unfold assertMove
  split
  · exact if_pos (beq_iff_eq.mpr (checks.refused rfl rfl))
  · exact if_pos (beq_iff_eq.mpr (checks.refused rfl rfl))
  · next found =>
      have position := checks.bytes _ found rfl rfl
      dsimp only at position
      simp [assert, add_eq (show before.position + found.length < 2 ^ 64 by omega), position]
  · next run =>
      obtain ⟨present, position⟩ := checks.numericRun run rfl rfl
      have positive := List.length_pos_iff.mpr present
      dsimp only at position
      simp [assert, add_eq (show before.position + run.length < 2 ^ 64 by omega),
        sub_eq (show 1 ≤ before.position + run.length by omega), position]
      omega
  · exact if_pos (beq_iff_eq.mpr (checks.refused rfl rfl))
  · rfl

theorem finish_eq {allocator : Allocator} (granted : allocator (fixedFractionDigits + 8))
    {c : Cursor} (inside : c.position ≤ c.capacity) (small : c.capacity < 2 ^ 63) :
    finish allocator c = some (Scenario.finish allocator c) := by
  have written : slice c.buffer 0 c.position = some c.written := slice_eq (Nat.zero_le _) inside
  simp only [finish, written, Option.bind_eq_bind, Option.bind_some, Scenario.finish]
  cases read : textOf? c.written with
  | none => rfl
  | some text =>
      have short : (utf8 text).length < 2 ^ 63 := by
        rw [utf8_textOf? read, c.length_written inside]
        omega
      simp only [readNumber_eq short, Option.bind_some, numberLog]
      cases ByteCursor.readNumber (utf8 text) with
      | error => rfl
      | ok value => simp [fixedText_of_granted granted, Except.toOption]

theorem drive_eq {allocator : Allocator} (granted : allocator (fixedFractionDigits + 8))
    {c : Cursor} (ops : List (Operation σ)) (inside : c.position ≤ c.capacity)
    (small : ∀ d ∈ c.states (ops.map (Operation.asking allocator)), d.capacity < 2 ^ 63)
    (short : ∀ op ∈ ops, op.isShort) :
    drive allocator c ops = some (Scenario.drive allocator c ops) := by
  induction ops generalizing c with
  | nil => exact finish_eq granted inside (small c List.mem_cons_self)
  | cons op ops ih =>
      obtain ⟨here, later⟩ := List.forall_mem_cons.mp small
      have next : (c.perform allocator op).cursor.capacity < 2 ^ 63 := by
        cases ops <;> exact later _ List.mem_cons_self
      have checks := Cursor.perform_checks allocator op inside
      have first : perform allocator c op = some (c.perform allocator op) :=
        performCall_eq (op.asking allocator) here (short op List.mem_cons_self) inside
      have others := ih checks.inside later fun after mem => short after (List.mem_cons_of_mem op mem)
      simp only [drive, first, assertMove_of_checks checks next, others, assert, checks.inside,
        checks.growth, Scenario.drive, Scenario.held_of_checks checks, decide_true, if_true,
        Option.bind_eq_bind, Option.bind_some]
      rfl

end Checked

def Start.origin : Start → Origin
  | text bytes => .text bytes
  | blank size limit =>
      .options { initialCapacity := size.toUInt64, maxCapacity := limit.map UInt16.toUInt64 }

theorem Start.cursor_inside {allocator : Allocator} {start : Start} {c : Cursor}
    (made : start.cursor allocator = .ok c) : c.position ≤ c.capacity := by
  have origin : start.origin.cursor allocator = .ok c := by
    cases start <;> exact made
  exact (Cursor.cursor_bounded origin).inside

namespace Scenario

/-- Every scenario holds to its end, with every sum, slice and assertion checked. -/
theorem run_never_fails (allocator : Allocator) (s : Scenario σ) :
    (s.run allocator).held ∧
    (∀ start, s.start.cursor allocator = .ok start →
      (∀ (calls : List (Call σ)) (call : Call σ),
        Checks (start.after calls) call.operation (call.perform (start.after calls))) ∧
      ∀ text value, textOf? (start.run allocator s.operations).cursor.written = some text →
        readNumber (utf8 text) = .ok value →
        (s.run allocator).number = some (fixedText allocator value) ∧
        (allocator (fixedFractionDigits + 8) → fixedText allocator value = .ok (writeFixed value))) ∧
    ((∀ start, s.start.cursor allocator = .ok start →
        ∀ c ∈ start.states (s.operations.map (Operation.asking allocator)), c.capacity < 2 ^ 63) →
      (∀ op ∈ s.operations, op.isShort) → allocator (fixedFractionDigits + 8) →
      Checked.scenario allocator s = some (s.run allocator)) := by
  cases made : s.start.cursor allocator with
  | error => simp [run, Checked.scenario, made]
  | ok start =>
      have inside := Start.cursor_inside made
      have whole := drive_eq allocator s.operations inside
      have driven : s.run allocator = drive allocator start s.operations := by rw [run, made]
      rw [driven, whole]
      refine ⟨finish_held _ _, ?_, fun small short granted => ?_⟩
      · rintro _ ⟨⟩
        refine ⟨fun calls call => ?_, fun text value written read => ?_⟩
        · exact Cursor.call_checks call (Cursor.after_inside calls inside)
        · refine ⟨?_, fun granted => fixedText_of_granted granted value⟩
          simp [finish, written, read, Except.toOption]
      · rw [← whole, Checked.scenario, made]
        exact Checked.drive_eq granted s.operations inside (small start rfl) short

-- Eight bytes at most: the closing quote is refused, nine bytes are not there, and what is written
-- in the end is `-2.5`.
theorem run_never_fails_limited :
    let granting : Allocator := fun _ => true
    let s : Scenario Unit := ⟨.blank 2 (some 8),
      [.append (utf8 "-2.50"), .appendQuoted (utf8 "x"), .reset, .bytes 9, .numericRun]⟩
    (s.run granting).held ∧ Checked.scenario granting s = some (s.run granting) := by
  intro granting s
  let options : Options := { initialCapacity := 2, maxCapacity := some 8 }
  have made : s.start.cursor granting = .ok ⟨[32, 32], 0, 2, options⟩ := rfl
  obtain ⟨held, _, checked⟩ := run_never_fails granting s
  refine ⟨held, checked ?_ (by decide) rfl⟩
  intro start other
  obtain rfl := Except.ok.inj (made.symm.trans other)
  decide

end Scenario

end ByteCursor
