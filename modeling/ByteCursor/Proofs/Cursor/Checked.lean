import ByteCursor.Proofs.Cursor.Bounds
import ByteCursor.Proofs.Numeric.Checked

set_option autoImplicit false

namespace ByteCursor

variable {α σ : Type}

-- The slices that an operation is given are shorter than half of what 64 bits can count.
def Operation.isShort : Operation σ → Bool
  | .literal word _ | .accept word => word.length < 2 ^ 63
  | .append text | .appendQuoted text => text.length < 2 ^ 63
  | _ => true

namespace Checked

def takeByte (c : Cursor) : Option (Option UInt8 × Cursor) :=
  match c.buffer[c.position]? with
  | none => some (none, c)
  | some b => do return (some b, { c with position := ← add c.position 1 })

def pastBlanks (buffer : Bytes) (position : Nat) : Option Nat :=
  if inside : position < buffer.length then
    if isBlank buffer[position] then
      match next : add position 1 with
      | none => none
      | some after => pastBlanks buffer after
    else some position
  else some position
termination_by buffer.length - position
decreasing_by
  simp only [add, Option.ite_none_right_eq_some, Option.some.injEq] at next
  omega

def skipBlanks (c : Cursor) : Option Cursor := do
  let first ← if c.position < c.capacity then add c.position 1 else some c.position
  return { c with position := ← pastBlanks c.buffer first }

def takeDelimited (opening closing : UInt8) (c : Cursor) : Option (Option Bytes × Cursor) :=
  match c.buffer[c.position]? with
  | none => some (none, c)
  | some b =>
      if b = opening then do
        let first ← add c.position 1
        let body ← slice c.buffer first c.capacity
        let whole ← sub c.capacity first
        let length := (body.findIdx? fun b => b == closing || b == 0).getD whole
        let last ← add first length
        return (some (← slice c.buffer first last), { c with position := last })
      else some (none, c)

def takeBytes (count : Nat) (c : Cursor) : Option (Option Bytes × Cursor) := do
  if (← sub c.capacity c.position) < count then return (none, c)
  let last ← add c.position count
  return (some (← slice c.buffer c.position last), { c with position := last })

def takeNumericRun (c : Cursor) : Option (Option Bytes × Cursor) := do
  let rest ← slice c.buffer c.position c.capacity
  let length := (rest.takeWhile isNumeric).length
  if length = 0 then return (none, c)
  let run ← slice c.buffer c.position (← add c.position length)
  return (some run, { c with position := ← add c.position (← sub length 1) })

def takeNumber (c : Cursor) : Option (Option Binary64 × Cursor) := do
  match ← takeNumericRun c with
  | (none, after) => return (none, after)
  | (some run, after) =>
      let found ← leadingNumber run
      return (some ((found.map Prod.fst).getD (.zero false)), after)

def accept (word : Bytes) (c : Cursor) : Option (Bool × Cursor) := do
  let last ← add c.position word.length
  if slice c.buffer c.position last = some word then return (true, { c with position := last })
  else return (false, c)

def takeLiteral (word : Bytes) (sentinel : σ) (c : Cursor) : Option (Option σ × Cursor) := do
  let (found, after) ← accept word c
  return (if found then some sentinel else none, after)

def takeBoolean (c : Cursor) : Option (Option Bool × Cursor) := do
  match ← takeLiteral (utf8 "true") true c with
  | (some found, after) => return (some found, after)
  | (none, after) => takeLiteral (utf8 "false") false after

def reserve (allocator : Allocator) (count : Nat) (c : Cursor) : Option Attempt := do
  if count ≤ (← sub c.capacity c.position) then return .done c
  let step := max count c.growth
  let refused := .error ⟨step, c.capacity⟩
  match add c.capacity step with
  | none => return ⟨refused, c, []⟩
  | some wanted =>
      if !c.options.allows wanted then return ⟨refused, c, [.limitReached wanted]⟩
      else if !allocator step then return ⟨refused, c, [.allocatorRefused step]⟩
      else return ⟨.ok (), c.grown step, [.grew c.capacity wanted]⟩

def andThen (first : Option Attempt) (next : Cursor → Option Attempt) : Option Attempt := do
  let first ← first
  match first.answer with
  | .error _ => return first
  | .ok _ =>
      let second ← next first.cursor
      return { second with log := first.log ++ second.log }

def paste (text buffer : Bytes) (first last : Nat) : Option Bytes := do
  let target ← slice buffer first last
  if target.length = text.length then return buffer.take first ++ text ++ buffer.drop last
  else none

def append (allocator : Allocator) (text : Bytes) (c : Cursor) : Option Attempt :=
  andThen (reserve allocator text.length c) fun c => do
    let last ← add c.position text.length
    return .done { c with buffer := ← paste text c.buffer c.position last, position := last }

def appendParts : List Part → Cursor → Option Attempt
  | [], c => some (.done c)
  | part :: parts, c => andThen (append part.allocator part.bytes c) (appendParts parts)

def replied {β : Type} (reply : α → β) (result : Option (α × Cursor)) : Option (Outcome β) :=
  result.map (Cursor.replied reply)

def attempted (result : Option Attempt) : Option (Outcome (Reply σ)) :=
  result.map Cursor.attempted

def performCall (call : Call σ) (c : Cursor) : Option (Outcome (Reply σ)) :=
  match call.operation with
  | .byte => replied .byte (takeByte c)
  | .skipBlanks => (skipBlanks c).map fun after => ⟨.done, after, []⟩
  | .delimited opening closing => replied .bytes (takeDelimited opening closing c)
  | .bytes count => replied .bytes (takeBytes count c)
  | .numericRun => replied .bytes (takeNumericRun c)
  | .number => replied .number (takeNumber c)
  | .literal word sentinel => replied .sentinel (takeLiteral word sentinel c)
  | .boolean => replied .boolean (takeBoolean c)
  | .accept word => replied .accepted (accept word c)
  | .reset => some ⟨.done, { c with position := 0 }, []⟩
  | .reserve count => attempted (reserve (call.allocators 0) count c)
  | .append text => attempted (append (call.allocators 0) text c)
  | .appendQuoted text => attempted (appendParts (quotedParts call.allocators text) c)
  | .appendNumber value => attempted
      (append (call.allocators 0) (writeSignificant c.options.significantDigits.toNat value) c)

def perform (allocator : Allocator) (c : Cursor) (op : Operation σ) : Option (Outcome (Reply σ)) :=
  performCall (op.asking allocator) c

def runCalls : Cursor → List (Call σ) → Option (Outcome (List (Reply σ)))
  | c, [] => some ⟨[], c, []⟩
  | c, call :: calls => do
      let first ← performCall call c
      let others ← runCalls first.cursor calls
      return ⟨first.answer :: others.answer, others.cursor, first.log ++ others.log⟩

section

variable {c : Cursor}

theorem rest_getElem? (c : Cursor) : c.buffer[c.position]? = c.rest.head? := by
  rw [Cursor.rest, List.head?_drop]

theorem takeByte_eq (small : c.capacity < 2 ^ 63) : takeByte c = some c.takeByte := by
  unfold takeByte
  rw [rest_getElem?, Cursor.takeByte, Cursor.scan]
  cases rest : c.rest with
  | nil => rfl
  | cons b tail =>
      have bound := (drop_cons rest).1
      simp only [Cursor.capacity] at small
      simp only [List.head?_cons, add_eq (show c.position + 1 < 2 ^ 64 by omega), Scan.byte]
      rfl

theorem pastBlanks_eq {buffer : Bytes} (small : buffer.length < 2 ^ 63) (position : Nat) :
    pastBlanks buffer position =
      some (position + ((buffer.drop position).takeWhile isBlank).length) := by
  induction rest : buffer.drop position generalizing position with
  | nil =>
      have past := List.drop_eq_nil_iff.mp rest
      rw [pastBlanks, dif_neg (by omega)]
      rfl
  | cons b tail ih =>
      obtain ⟨bound, next⟩ := drop_cons rest
      have inside : position < buffer.length := by omega
      have head : buffer[position] = b := by
        rw [List.drop_eq_getElem_cons inside] at rest
        exact (List.cons.inj rest).1
      rw [pastBlanks, dif_pos inside, head]
      by_cases blank : isBlank b
      · have sum := add_eq (show position + 1 < 2 ^ 64 by omega)
        rw [if_pos blank]
        split
        · next none =>
            rw [sum] at none
            cases none
        · next after found =>
            rw [sum] at found
            cases found
            rw [ih (position + 1) next, List.takeWhile_cons_of_pos blank, List.length_cons]
            congr 1
            omega
      · simp [blank]

theorem skipBlanks_eq (small : c.capacity < 2 ^ 63) : skipBlanks c = some c.skipBlanks := by
  simp only [skipBlanks, Cursor.skipBlanks, Cursor.moved]
  cases rest : c.rest with
  | nil =>
      have past := List.drop_eq_nil_iff.mp rest
      have outside : ¬ c.position < c.capacity := by
        simp only [Cursor.capacity]
        omega
      simp [outside, pastBlanks_eq small, List.drop_eq_nil_iff.mpr past, Scan.pastBlanks]
  | cons b tail =>
      obtain ⟨bound, next⟩ := drop_cons rest
      simp only [Cursor.capacity] at small
      have inside : c.position < c.capacity := by
        simp only [Cursor.capacity]
        omega
      simp only [inside, if_true, add_eq (show c.position + 1 < 2 ^ 64 by omega),
        Option.bind_eq_bind, Option.bind_some, pastBlanks_eq small, next, Scan.pastBlanks,
        Nat.add_assoc]
      rfl

theorem findIdx?_getD (p : UInt8 → Bool) (bs : Bytes) :
    (bs.findIdx? p).getD bs.length = (bs.takeWhile fun b => !p b).length := by
  rw [← List.findIdx_eq_getD_findIdx?, List.takeWhile_eq_take_findIdx_not]
  simp [List.findIdx_le_length]

theorem slice_rest (inside : c.position ≤ c.capacity) (length : Nat)
    (fits : length ≤ c.remaining) :
    slice c.buffer c.position (c.position + length) = some (c.rest.take length) := by
  simp only [Cursor.remaining, Cursor.capacity] at *
  rw [slice_eq (Nat.le_add_right _ _) (by omega), Nat.add_sub_cancel_left, Cursor.rest]

theorem take_length_takeWhile (p : UInt8 → Bool) (bs : Bytes) :
    bs.take (bs.takeWhile p).length = bs.takeWhile p :=
  (List.prefix_iff_eq_take.mp (List.takeWhile_prefix p)).symm

theorem takeDelimited_eq (opening closing : UInt8) (small : c.capacity < 2 ^ 63) :
    takeDelimited opening closing c = some (c.takeDelimited opening closing) := by
  unfold takeDelimited
  rw [rest_getElem?, Cursor.takeDelimited, Cursor.scan]
  cases rest : c.rest with
  | nil => rfl
  | cons b tail =>
      obtain ⟨bound, next⟩ := drop_cons rest
      simp only [Cursor.capacity] at small
      by_cases opens : b = opening
      · have within : c.position + 1 ≤ c.buffer.length := by omega
        have whole : c.buffer.length - (c.position + 1) = tail.length := by omega
        have inner := (List.takeWhile_sublist (fun b => !(b == closing || b == 0)) (l := tail)).length_le
        simp only [List.head?_cons, opens, if_true, add_eq (show c.position + 1 < 2 ^ 64 by omega),
          Option.bind_eq_bind, Option.bind_some, Cursor.capacity, slice_drop within, next,
          sub_eq within, whole, findIdx?_getD]
        rw [add_eq (by omega), Option.bind_some, slice_eq (Nat.le_add_right _ _) (by omega), next,
          Nat.add_sub_cancel_left, take_length_takeWhile]
        simp [Scan.delimited, Cursor.moved, bne, Nat.add_assoc, Nat.add_comm]
      · simp [opens, Scan.delimited]

theorem takeBytes_eq (count : Nat) (small : c.capacity < 2 ^ 63) (inside : c.position ≤ c.capacity) :
    takeBytes count c = some (c.takeBytes count) := by
  simp only [takeBytes, sub_eq inside, Option.bind_eq_bind, Option.bind_some, Cursor.takeBytes,
    Cursor.scan, Scan.bytes, Cursor.length_rest]
  by_cases fits : count ≤ c.remaining
  · have enough : ¬ c.capacity - c.position < count := Nat.not_lt_of_le fits
    have sum : c.position + count < 2 ^ 64 := by
      simp only [Cursor.remaining] at fits
      omega
    simp only [enough, if_false, add_eq sum, Option.bind_some, slice_rest inside count fits, fits,
      if_true]
    rfl
  · have short : c.capacity - c.position < count := Nat.lt_of_not_le fits
    simp [short, fits]

theorem takeNumericRun_eq (small : c.capacity < 2 ^ 63) (inside : c.position ≤ c.capacity) :
    takeNumericRun c = some c.takeNumericRun := by
  have run := (List.takeWhile_sublist isNumeric (l := c.rest)).length_le
  rw [Cursor.length_rest] at run
  have bound : c.position + (c.rest.takeWhile isNumeric).length ≤ c.capacity := by
    simp only [Cursor.remaining] at run
    omega
  have whole : slice c.buffer c.position c.capacity = some c.rest := slice_drop inside
  simp only [takeNumericRun, whole, Option.bind_eq_bind, Option.bind_some, Cursor.takeNumericRun,
    Cursor.scan, Scan.numericRun]
  by_cases empty : c.rest.takeWhile isNumeric = []
  · simp [empty]
  · have positive := List.length_pos_iff.mpr empty
    have nonzero : (c.rest.takeWhile isNumeric).length ≠ 0 := by omega
    simp only [nonzero, if_false, add_eq (show c.position + (c.rest.takeWhile isNumeric).length < 2 ^ 64
      by omega), Option.bind_some, slice_rest inside _ run, take_length_takeWhile,
      sub_eq (show 1 ≤ (c.rest.takeWhile isNumeric).length by omega),
      add_eq (show c.position + ((c.rest.takeWhile isNumeric).length - 1) < 2 ^ 64 by omega),
      List.isEmpty_eq_false_iff.mpr empty, Bool.false_eq_true]
    rfl

theorem takeNumber_eq (small : c.capacity < 2 ^ 63) (inside : c.position ≤ c.capacity) :
    takeNumber c = some c.takeNumber := by
  have run := (List.takeWhile_sublist isNumeric (l := c.rest)).length_le
  rw [Cursor.length_rest, Cursor.remaining] at run
  simp only [takeNumber, takeNumericRun_eq small inside, Option.bind_eq_bind, Option.bind_some,
    Cursor.takeNumericRun, Cursor.takeNumber, Cursor.scan, Scan.number, Scan.numericRun]
  by_cases empty : (c.rest.takeWhile isNumeric).isEmpty
  · simp [empty]
  · simp only [empty, Bool.false_eq_true, if_false, leadingNumber_eq (show
      (c.rest.takeWhile isNumeric).length < 2 ^ 63 by omega), Option.bind_some, Option.map_some,
      Option.map_map, frontNumber]
    rfl

theorem accept_eq (word : Bytes) (small : c.capacity < 2 ^ 63) (short : word.length < 2 ^ 63)
    (inside : c.position ≤ c.capacity) : accept word c = some (c.accept word) := by
  simp only [accept, add_eq (show c.position + word.length < 2 ^ 64 by omega), Option.bind_eq_bind,
    Option.bind_some, Cursor.accept, Cursor.takeLiteral, Cursor.scan, Scan.literal]
  by_cases starts : word <+: c.rest
  · have fits := starts.length_le
    rw [Cursor.length_rest] at fits
    rw [slice_rest inside _ fits, ← List.prefix_iff_eq_take.mp starts]
    simp only [List.isPrefixOf_iff_prefix.mpr starts, if_true]
    rfl
  · have differ : slice c.buffer c.position (c.position + word.length) ≠ some word := by
      intro same
      apply starts
      rw [slice, Option.ite_none_right_eq_some, Option.some.injEq] at same
      rw [← same.2, List.drop_take, Nat.add_sub_cancel_left]
      exact List.take_prefix _ _
    have refused : word.isPrefixOf c.rest = false := by
      apply Bool.eq_false_iff.mpr
      intro found
      exact starts (List.isPrefixOf_iff_prefix.mp found)
    simp [differ, refused]

theorem takeLiteral_eq (word : Bytes) (sentinel : σ) (small : c.capacity < 2 ^ 63)
    (short : word.length < 2 ^ 63) (inside : c.position ≤ c.capacity) :
    takeLiteral word sentinel c = some (c.takeLiteral word sentinel) := by
  simp only [takeLiteral, accept_eq word small short inside, Option.bind_eq_bind,
    Option.bind_some, Cursor.accept, Cursor.takeLiteral, Cursor.scan, Scan.literal]
  by_cases starts : word.isPrefixOf c.rest <;> simp [starts]

theorem takeBoolean_eq (small : c.capacity < 2 ^ 63) (inside : c.position ≤ c.capacity) :
    takeBoolean c = some c.takeBoolean := by
  have yes := takeLiteral_eq (utf8 "true") true small (by decide) inside
  have no := takeLiteral_eq (utf8 "false") false small (by decide) inside
  simp only [takeBoolean, yes, Option.bind_eq_bind, Option.bind_some, Cursor.takeBoolean,
    Cursor.takeLiteral, Cursor.scan, Scan.boolean]
  cases found : Scan.literal (utf8 "true") true c.rest with
  | some result => rfl
  | none =>
      rw [Option.none_or]
      exact no

theorem reserve_eq (allocator : Allocator) (count : Nat) (inside : c.position ≤ c.capacity) :
    reserve allocator count c = some (c.reserve allocator count) := by
  simp only [reserve, sub_eq inside, Option.bind_eq_bind, Option.bind_some, Cursor.reserve]
  by_cases fits : count ≤ c.remaining
  · have enough : count ≤ c.capacity - c.position := fits
    simp only [fits, enough, if_true]
    rfl
  · have short : ¬ count ≤ c.capacity - c.position := fits
    simp only [fits, short, if_false]
    by_cases addressable : c.capacity + max count c.growth < 2 ^ 64
    · rw [add_eq addressable, if_neg (Nat.not_le_of_lt addressable)]
      dsimp only
      split
      · rfl
      · split <;> rfl
    · rw [add, if_neg addressable, if_pos (Nat.le_of_not_lt addressable)]
      rfl

theorem andThen_eq {first : Option Attempt} {done : Attempt} {next : Cursor → Option Attempt}
    {after : Cursor → Attempt} (before : first = some done)
    (rest : done.answer = .ok () → next done.cursor = some (after done.cursor)) :
    andThen first next = some (done.andThen after) := by
  subst before
  simp only [andThen, Option.bind_eq_bind, Option.bind_some, Attempt.andThen]
  cases answer : done.answer with
  | error refusal => rfl
  | ok _ =>
      rw [rest answer]
      rfl

theorem paste_eq (text : Bytes) (inside : c.position ≤ c.capacity)
    (fits : text.length ≤ c.remaining) :
    paste text c.buffer c.position (c.position + text.length) =
      some (c.overwritten text).buffer := by
  have target : (c.rest.take text.length).length = text.length := by
    rw [List.length_take, Cursor.length_rest]
    omega
  simp only [paste, slice_rest inside text.length fits, Option.bind_eq_bind, Option.bind_some,
    target, if_true]
  simp only [Cursor.overwritten, Cursor.written, Cursor.rest, List.drop_drop]
  rfl

theorem append_eq (allocator : Allocator) (text : Bytes) (small : c.capacity < 2 ^ 64)
    (inside : c.position ≤ c.capacity) :
    append allocator text c = some (c.append allocator text) := by
  apply andThen_eq (reserve_eq allocator text.length inside)
  intro granted
  have changes := Cursor.reserve_changes allocator text.length c
  have within := Cursor.changes_inside changes inside
  have addressable := Cursor.changes_addressable changes inside small
  have fits : text.length ≤ (c.reserve allocator text.length).cursor.remaining :=
    Cursor.remaining_of_reserve allocator text.length c inside granted
  have sum : (c.reserve allocator text.length).cursor.position + text.length < 2 ^ 64 := by
    simp only [Cursor.remaining] at fits
    omega
  simp only [add_eq sum, paste_eq text within fits, Option.bind_eq_bind, Option.bind_some]
  rfl

theorem appendParts_eq (parts : List Part) (small : c.capacity < 2 ^ 64)
    (inside : c.position ≤ c.capacity) : appendParts parts c = some (c.appendParts parts) := by
  induction parts generalizing c with
  | nil => rfl
  | cons part parts ih =>
      apply andThen_eq (append_eq part.allocator part.bytes small inside)
      intro _
      have changes := Cursor.append_changes part.allocator part.bytes c inside
      exact ih (Cursor.changes_addressable changes inside small)
        (Cursor.changes_inside changes inside)

theorem performCall_eq (call : Call σ) (small : c.capacity < 2 ^ 63)
    (short : call.operation.isShort) (inside : c.position ≤ c.capacity) :
    performCall call c = some (call.perform c) := by
  have addressable : c.capacity < 2 ^ 64 := by omega
  obtain ⟨op, allocators⟩ := call
  cases op with
  | byte => exact congrArg (replied Reply.byte) (takeByte_eq small)
  | skipBlanks => exact congrArg (Option.map _) (skipBlanks_eq small)
  | delimited opening closing =>
      exact congrArg (replied Reply.bytes) (takeDelimited_eq opening closing small)
  | bytes count => exact congrArg (replied Reply.bytes) (takeBytes_eq count small inside)
  | numericRun => exact congrArg (replied Reply.bytes) (takeNumericRun_eq small inside)
  | number => exact congrArg (replied Reply.number) (takeNumber_eq small inside)
  | literal word sentinel =>
      exact congrArg (replied Reply.sentinel)
        (takeLiteral_eq word sentinel small (of_decide_eq_true short) inside)
  | boolean => exact congrArg (replied Reply.boolean) (takeBoolean_eq small inside)
  | accept word =>
      exact congrArg (replied Reply.accepted) (accept_eq word small (of_decide_eq_true short) inside)
  | reset => rfl
  | reserve count => exact congrArg attempted (reserve_eq (allocators 0) count inside)
  | append text => exact congrArg attempted (append_eq (allocators 0) text addressable inside)
  | appendQuoted text => exact congrArg attempted (appendParts_eq _ addressable inside)
  | appendNumber value => exact congrArg attempted (append_eq (allocators 0) _ addressable inside)

theorem runCalls_eq (calls : List (Call σ)) (inside : c.position ≤ c.capacity)
    (small : ∀ d ∈ c.states calls, d.capacity < 2 ^ 63)
    (short : ∀ call ∈ calls, call.operation.isShort) :
    runCalls c calls = some (c.runCalls calls) := by
  induction calls generalizing c with
  | nil => rfl
  | cons call calls ih =>
      obtain ⟨here, later⟩ := List.forall_mem_cons.mp small
      obtain ⟨shorter, others⟩ := List.forall_mem_cons.mp short
      have first := performCall_eq call here shorter inside
      have rest := ih (Cursor.call_inside call inside) later others
      simp only [runCalls, first, rest, Option.bind_eq_bind, Option.bind_some]
      rfl

end

end Checked

namespace Cursor

/-- Every run from every start, whatever is granted and whatever refused, stays inside its buffer
and the buffer within its limit, and no sum, difference or slice leaves its range. -/
theorem run_stays_in_bounds {allocator : Allocator} {origin : Origin} {start : Cursor}
    (made : origin.cursor allocator = .ok start) (calls : List (Call σ)) :
    (∀ c ∈ start.states calls, c.position ≤ c.capacity ∧ c.options = start.options ∧
      (∀ limit, c.options.maxCapacity = some limit → c.capacity ≤ limit.toNat) ∧
      (origin.isBlank → c.options.initialCapacity.toNat ≤ c.growth)) ∧
    (start.states calls).Pairwise (fun before after =>
      before.capacity ≤ after.capacity ∧ before.growth ≤ after.growth) ∧
    ((∀ c ∈ start.states calls, c.capacity < 2 ^ 63) →
      (∀ call ∈ calls, call.operation.isShort) →
      Checked.runCalls start calls = some (start.runCalls calls)) := by
  have bounded := cursor_bounded made
  refine ⟨?_, ?_, ?_⟩
  · intro c passed
    have here := states_bounded calls bounded c passed
    have onward := states_onward calls bounded.inside c passed
    refine ⟨here.inside, onward.options, here.limited, ?_⟩
    intro blank
    rw [onward.options, ← blank_growth made blank]
    exact onward.growth
  · apply (states_pairwise calls bounded).imp
    intro before after onward
    exact ⟨onward.capacity, onward.growth⟩
  · exact fun small short => Checked.runCalls_eq calls bounded.inside small short

-- Two bytes are granted at first and refused later to the same step, then granted again. The
-- closing quote is refused by the allocator once and by the limit once, and a reservation by 64
-- bits.
def crowdedOptions : Options := { initialCapacity := 2, maxCapacity := some 9 }

def crowdedStart : Cursor := ⟨[32, 32], 0, 2, crowdedOptions⟩

def crowdedCalls : List (Call Unit) :=
  [⟨.append (utf8 "ab"), fun _ _ => true⟩, ⟨.append (utf8 "c"), fun _ _ => false⟩,
    ⟨.appendQuoted (utf8 "d"), fun part _ => part != 2⟩,
    ⟨.appendQuoted (utf8 "1e5"), fun _ _ => true⟩, ⟨.reset, fun _ _ => true⟩,
    ⟨.byte, fun _ _ => true⟩, ⟨.skipBlanks, fun _ _ => true⟩, ⟨.number, fun _ _ => true⟩,
    ⟨.accept (utf8 "5"), fun _ _ => true⟩, ⟨.reserve (2 ^ 64 - 1), fun _ _ => true⟩]

theorem run_stays_in_bounds_crowded :
    (Origin.options crowdedOptions).cursor (fun size => size == 2) = .ok crowdedStart ∧
      (∀ c ∈ crowdedStart.states crowdedCalls, c.position ≤ c.capacity) ∧
      Checked.runCalls crowdedStart crowdedCalls =
        some (crowdedStart.runCalls crowdedCalls) := by
  have made : (Origin.options crowdedOptions).cursor (fun size => size == 2) = .ok crowdedStart :=
    rfl
  have bounds := run_stays_in_bounds made crowdedCalls
  refine ⟨made, fun c passed => (bounds.1 c passed).1, bounds.2.2 ?_ ?_⟩
  · decide
  · exact List.all_eq_true.mp
      (by decide : crowdedCalls.all fun call => call.operation.isShort)

end Cursor

end ByteCursor
