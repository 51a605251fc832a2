import ByteCursor.Proofs.Cursor.Checked
import ByteCursor.Proofs.Cursor.Contents
import ByteCursor.Proofs.Cursor.Position
import ByteCursor.Proofs.Numeric.Longest

set_option autoImplicit false

namespace ByteCursor

variable {σ : Type}

def Operation.isScan : Operation σ → Bool
  | .byte | .skipBlanks | .delimited .. | .bytes _ | .numericRun | .number | .literal .. | .boolean
  | .accept _ => true
  | _ => false

def Reply.isRefusal : Reply σ → Bool
  | .byte none | .bytes none | .number none | .sentinel none | .boolean none | .accepted false => true
  | _ => false

def booleanWord (value : Bool) : Bytes := utf8 (if value then "true" else "false")

inductive Scanned : Operation σ → Bytes → Reply σ → Nat → Prop
  | noByte : Scanned .byte [] (.byte none) 0
  | byte (b : UInt8) (bs : Bytes) : Scanned .byte (b :: bs) (.byte (some b)) 1
  | noBlanks : Scanned .skipBlanks [] .done 0
  | blanks (b : UInt8) {blanks bs : Bytes}
      (longest : IsLongestFront (fun b => b.toNat ≤ 0x20) blanks bs) :
      Scanned .skipBlanks (b :: bs) .done (1 + blanks.length)
  | unopened {opening : UInt8} (closing : UInt8) {bs : Bytes} (other : bs.head? ≠ some opening) :
      Scanned (.delimited opening closing) bs (.bytes none) 0
  | delimited (opening : UInt8) {closing : UInt8} {inner bs : Bytes}
      (longest : IsLongestFront (fun b => b ≠ closing ∧ b ≠ 0) inner bs) :
      Scanned (.delimited opening closing) (opening :: bs) (.bytes (some inner)) (1 + inner.length)
  | tooFew {count : Nat} {bs : Bytes} (short : bs.length < count) :
      Scanned (.bytes count) bs (.bytes none) 0
  | bytes {found bs : Bytes} (starts : found <+: bs) :
      Scanned (.bytes found.length) bs (.bytes (some found)) found.length
  | noRun {bs : Bytes} (longest : IsLongestFront (fun b => isNumeric b) [] bs) :
      Scanned .numericRun bs (.bytes none) 0
  | numericRun {run bs : Bytes} (present : run ≠ [])
      (longest : IsLongestFront (fun b => isNumeric b) run bs) :
      Scanned .numericRun bs (.bytes (some run)) (run.length - 1)
  | noNumber {bs : Bytes} (longest : IsLongestFront (fun b => isNumeric b) [] bs) :
      Scanned .number bs (.number none) 0
  | number {run bs : Bytes} (present : run ≠ [])
      (longest : IsLongestFront (fun b => isNumeric b) run bs) :
      Scanned .number bs (.number (some (frontNumber run))) (run.length - 1)
  | noLiteral {word bs : Bytes} (sentinel : σ) (other : ¬ word <+: bs) :
      Scanned (.literal word sentinel) bs (.sentinel none) 0
  | literal {word bs : Bytes} (sentinel : σ) (starts : word <+: bs) :
      Scanned (.literal word sentinel) bs (.sentinel (some sentinel)) word.length
  | noBoolean {bs : Bytes} (other : ∀ value, ¬ booleanWord value <+: bs) :
      Scanned .boolean bs (.boolean none) 0
  | boolean {value : Bool} {bs : Bytes} (starts : booleanWord value <+: bs) :
      Scanned .boolean bs (.boolean (some value)) (booleanWord value).length
  | notAccepted {word bs : Bytes} (other : ¬ word <+: bs) :
      Scanned (.accept word) bs (.accepted false) 0
  | accepted {word bs : Bytes} (starts : word <+: bs) :
      Scanned (.accept word) bs (.accepted true) word.length

theorem isInner_iff (closing b : UInt8) :
    (b != closing && b != 0) = true ↔ b ≠ closing ∧ b ≠ 0 := by
  simp

theorem exists_scanned {op : Operation σ} (scan : op.isScan) (bs : Bytes) :
    ∃ reply distance, Scanned op bs reply distance := by
  have numeric := takeWhile_isLongestFront (p := isNumeric) (fun b => Iff.rfl) bs
  cases op with
  | byte =>
      cases bs with
      | nil => exact ⟨_, _, .noByte⟩
      | cons b bs => exact ⟨_, _, .byte b bs⟩
  | skipBlanks =>
      cases bs with
      | nil => exact ⟨_, _, .noBlanks⟩
      | cons b bs => exact ⟨_, _, .blanks b (takeWhile_isLongestFront isBlank_iff bs)⟩
  | delimited opening closing =>
      by_cases opens : bs.head? = some opening
      · obtain ⟨rest, rfl⟩ := List.head?_eq_some_iff.mp opens
        exact ⟨_, _, .delimited opening (takeWhile_isLongestFront (isInner_iff closing) rest)⟩
      · exact ⟨_, _, .unopened closing opens⟩
  | bytes count =>
      by_cases fits : count ≤ bs.length
      · have found := Scanned.bytes (σ := σ) (List.take_prefix count bs)
        rw [List.length_take_of_le fits] at found
        exact ⟨_, _, found⟩
      · exact ⟨_, _, .tooFew (Nat.lt_of_not_le fits)⟩
  | numericRun =>
      by_cases empty : bs.takeWhile isNumeric = []
      · exact ⟨_, _, .noRun (empty ▸ numeric)⟩
      · exact ⟨_, _, .numericRun empty numeric⟩
  | number =>
      by_cases empty : bs.takeWhile isNumeric = []
      · exact ⟨_, _, .noNumber (empty ▸ numeric)⟩
      · exact ⟨_, _, .number empty numeric⟩
  | literal word sentinel =>
      by_cases starts : word <+: bs
      · exact ⟨_, _, .literal sentinel starts⟩
      · exact ⟨_, _, .noLiteral sentinel starts⟩
  | boolean =>
      by_cases starts : ∃ value, booleanWord value <+: bs
      · obtain ⟨value, starts⟩ := starts
        exact ⟨_, _, .boolean starts⟩
      · exact ⟨_, _, .noBoolean (not_exists.mp starts)⟩
  | accept word =>
      by_cases starts : word <+: bs
      · exact ⟨_, _, .accepted starts⟩
      · exact ⟨_, _, .notAccepted starts⟩
  | _ => cases scan

theorem Scanned.stays {op : Operation σ} {bs : Bytes} {reply : Reply σ} {distance : Nat}
    (scanned : Scanned op bs reply distance) (refused : reply.isRefusal) : distance = 0 := by
  cases scanned with
  | noByte | noBlanks | unopened | tooFew | noRun | noNumber | noLiteral | noBoolean
  | notAccepted => rfl
  | _ => cases refused

theorem Scanned.unattempted {op : Operation σ} {bs : Bytes} {reply : Reply σ} {distance : Nat}
    (scanned : Scanned op bs reply distance) (result : Except Refusal Unit) :
    reply ≠ .attempted result := by
  rintro rfl
  cases scanned

namespace Cursor

variable {α β : Type} {c : Cursor}

theorem replied_none {s : Scan α} (reply : Option α → β) (refused : s c.rest = none) :
    replied reply (c.scan s) = ⟨reply none, c.moved 0, []⟩ := by
  rw [scan_none refused]
  rfl

theorem replied_some {s : Scan α} (reply : Option α → β) {value : α} {distance : Nat}
    (found : s c.rest = some (value, distance)) :
    replied reply (c.scan s) = ⟨reply (some value), c.moved distance, []⟩ := by
  rw [scan_some found]
  rfl

theorem literal_starts {word bs : Bytes} (sentinel : α) (starts : word <+: bs) :
    Scan.literal word sentinel bs = some (sentinel, word.length) :=
  if_pos (List.isPrefixOf_iff_prefix.mpr starts)

theorem literal_other {word bs : Bytes} (sentinel : α) (other : ¬ word <+: bs) :
    Scan.literal word sentinel bs = none :=
  if_neg fun front => other (List.isPrefixOf_iff_prefix.mp front)

theorem boolean_eq (bs : Bytes) : Scan.boolean bs =
    (Scan.literal (booleanWord true) true bs).or (Scan.literal (booleanWord false) false bs) :=
  rfl

theorem boolean_starts {value : Bool} {bs : Bytes} (starts : booleanWord value <+: bs) :
    Scan.boolean bs = some (value, (booleanWord value).length) := by
  cases value with
  | true => rw [boolean_eq, literal_starts true starts, Option.some_or]
  | false =>
      have other : ¬ booleanWord true <+: bs := by
        obtain ⟨rest, rfl⟩ := starts
        intro front
        exact absurd (List.cons_prefix_cons.mp front).1 (by decide)
      rw [boolean_eq, literal_other true other, literal_starts false starts, Option.none_or]

theorem call_performs (call : Call σ) {bs : Bytes} {reply : Reply σ} {distance : Nat}
    (here : c.rest = bs) (scanned : Scanned call.operation bs reply distance) :
    call.perform c = ⟨reply, c.moved distance, []⟩ := by
  obtain ⟨op, allocators⟩ := call
  cases scanned with
  | noByte => exact replied_none _ (by rw [here]; rfl)
  | byte => exact replied_some _ (by rw [here]; rfl)
  | noBlanks => simp [Call.perform, skipBlanks, here, Scan.pastBlanks]
  | blanks b longest =>
      have same := (isLongestFront_iff isBlank_iff _ _).mp longest
      simp [Call.perform, skipBlanks, here, Scan.pastBlanks, ← same]
  | unopened closing other =>
      apply replied_none
      rw [here]
      cases bs with
      | nil => rfl
      | cons b bs => simpa [Scan.delimited] using other
  | delimited opening longest =>
      apply replied_some
      have same := (isLongestFront_iff (isInner_iff _) _ _).mp longest
      simp [here, Scan.delimited, ← same, Nat.add_comm]
  | tooFew short => exact replied_none _ (by simpa [here, Scan.bytes] using short)
  | bytes starts =>
      apply replied_some
      simp [here, Scan.bytes, starts.length_le, ← List.prefix_iff_eq_take.mp starts]
  | noRun longest => exact replied_none _ (by simp [here, numericRun_longest longest])
  | numericRun present longest =>
      exact replied_some _ (by simp [here, numericRun_longest longest, present])
  | noNumber longest => exact replied_none _ (by simp [here, number_longest longest])
  | number present longest => exact replied_some _ (by simp [here, number_longest longest, present])
  | noLiteral sentinel other => exact replied_none _ (here ▸ literal_other sentinel other)
  | literal sentinel starts => exact replied_some _ (here ▸ literal_starts sentinel starts)
  | noBoolean other =>
      apply replied_none
      rw [here, boolean_eq, literal_other true (other true), literal_other false (other false),
        Option.none_or]
  | boolean starts =>
      apply replied_some
      rw [here]
      exact boolean_starts starts
  | notAccepted other =>
      simp [Call.perform, accept, takeLiteral, scan, here, literal_other () other, replied, moved]
  | accepted starts =>
      simp [Call.perform, accept, takeLiteral, scan, here, literal_starts () starts, replied]

/-- A scan does what the one rule that applies to the bytes left says, and a refusal does not
move. -/
theorem scan_follows_rules {c : Cursor} (reached : c.Reachable) {op : Operation σ}
    (scan : op.isScan) (allocator : Allocator) :
    ∃ reply distance,
      c.perform allocator op = ⟨reply, { c with position := c.position + distance }, []⟩ ∧
      (∀ r d, Scanned op c.rest r d ↔ r = reply ∧ d = distance) ∧
      (reply.isRefusal → distance = 0) ∧
      (c.capacity < 2 ^ 63 → op.isShort →
        Checked.perform allocator c op = some (c.perform allocator op)) := by
  obtain ⟨reply, distance, scanned⟩ := exists_scanned scan c.rest
  have performed : ∀ {r d}, Scanned op c.rest r d → c.perform allocator op = ⟨r, c.moved d, []⟩ :=
    fun other => call_performs (op.asking allocator) rfl other
  refine ⟨reply, distance, performed scanned, fun r d => ⟨fun other => ?_, ?_⟩, scanned.stays, ?_⟩
  · have same := (performed scanned).symm.trans (performed other)
    simp only [Outcome.mk.injEq, moved, Cursor.mk.injEq] at same
    exact ⟨same.1.symm, by omega⟩
  · rintro ⟨rfl, rfl⟩
    exact scanned
  · exact fun small short => Checked.performCall_eq (op.asking allocator) small short reached.inside

-- A NUL closes what a NUL has opened, and stays.
theorem scan_follows_rules_nul :
    let c : Cursor := ⟨utf8 "a\x00bc\x00d", 1, 0, { initialCapacity := 6 }⟩
    let op : Operation Unit := .delimited 0 0
    c.Reachable ∧
      c.perform (fun _ => false) op = ⟨.bytes (some (utf8 "bc")), { c with position := 4 }, []⟩ := by
  intro c op
  have reached : c.Reachable :=
    ⟨Unit, .text (utf8 "a\x00bc\x00d"), fun _ => false, { c with position := 0 },
      [⟨.byte, fun _ _ => false⟩], rfl, rfl⟩
  have longest : IsLongestFront (fun b => b ≠ 0 ∧ b ≠ 0) (utf8 "bc") (utf8 "bc\x00d") :=
    (isLongestFront_iff (isInner_iff 0) _ _).mpr (by decide)
  obtain ⟨reply, distance, performed, rules, _⟩ :=
    scan_follows_rules reached (show op.isScan from rfl) fun _ => false
  obtain ⟨rfl, rfl⟩ := (rules _ _).mp (.delimited 0 longest)
  exact ⟨reached, performed⟩

end Cursor

end ByteCursor
