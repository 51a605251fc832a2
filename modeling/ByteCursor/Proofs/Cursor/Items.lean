import ByteCursor.Proofs.Cursor.Position
import ByteCursor.Proofs.Cursor.Written
import ByteCursor.Proofs.Numeric.RoundTrip

set_option autoImplicit false

namespace ByteCursor

def commaByte : UInt8 := ','.toUInt8

inductive Item
  | text (bytes : Bytes)
  | number (value : Binary64)
  | boolean (value : Bool)
  deriving Repr, DecidableEq

namespace Item

variable {σ : Type}

def IsPlain : Item → Prop
  -- A text in quotes ends at the next quote or NUL.
  | text bytes => ∀ b ∈ bytes, b ≠ quoteByte ∧ b ≠ 0
  | number value => ∃ negative m, value = .finite negative m
  | boolean _ => True

def operation : Item → Operation σ
  | text bytes => .appendQuoted bytes
  | number value => .appendNumber value
  | boolean value => .append (utf8 (if value then "true" else "false"))

def listed (items : List Item) : List (Operation σ) :=
  .append (utf8 "[") ::
    ((items.map operation).intersperse (.append (utf8 ", ")) ++ [.append (utf8 "]")])

def written (wanted : Nat) : Item → Bytes
  | text bytes => quoteByte :: (bytes ++ [quoteByte])
  | number value => writeSignificant wanted value
  | boolean value => utf8 (if value then "true" else "false")

def following (wanted : Nat) : List Item → Bytes
  | [] => utf8 "]"
  | item :: others => utf8 ", " ++ (item.written wanted ++ following wanted others)

def inside (wanted : Nat) : List Item → Bytes
  | [] => utf8 "]"
  | item :: others => item.written wanted ++ following wanted others

def listedText (wanted : Nat) (items : List Item) : Bytes := utf8 "[" ++ inside wanted items

@[simp] theorem contribution_operation (wanted : Nat) (item : Item) :
    (item.operation : Operation σ).contribution wanted = item.written wanted := by
  cases item <;> rfl

theorem contributions_separated (wanted : Nat) (item : Item) (others : List Item) :
    (((item :: others).map operation).intersperse (.append (utf8 ", ")) ++
        [.append (utf8 "]")] : List (Operation σ)).flatMap (Operation.contribution wanted) =
      item.written wanted ++ following wanted others := by
  induction others generalizing item with
  | nil =>
      simp only [List.map_cons, List.map_nil, List.intersperse_singleton, List.cons_append,
        List.nil_append, List.flatMap_cons, List.flatMap_nil, contribution_operation]
      rfl
  | cons other others ih =>
      have rest := ih other
      simp only [List.map_cons] at rest
      simp only [List.map_cons, List.intersperse_cons_cons, List.cons_append, List.flatMap_cons,
        contribution_operation, rest, following]
      rfl

theorem contributions_listed (wanted : Nat) (items : List Item) :
    (listed items : List (Operation σ)).flatMap (Operation.contribution wanted) =
      listedText wanted items := by
  rw [listed, List.flatMap_cons, listedText]
  cases items with
  | nil => simp [inside, Operation.contribution]
  | cons item others =>
      rw [contributions_separated, inside]
      rfl

theorem intersperse_isAppend {separator : Operation σ} (between : separator.isAppend)
    {ops : List (Operation σ)} (appends : ∀ op ∈ ops, op.isAppend) :
    ∀ op ∈ ops.intersperse separator, op.isAppend := by
  induction ops with
  | nil => simp
  | cons first ops ih =>
      obtain ⟨head, tail⟩ := List.forall_mem_cons.mp appends
      cases ops with
      | nil => simpa using head
      | cons second ops =>
          rw [List.intersperse_cons_cons]
          exact List.forall_mem_cons.mpr ⟨head, List.forall_mem_cons.mpr ⟨between, ih tail⟩⟩

theorem listed_isAppend (items : List Item) :
    ∀ op ∈ (listed items : List (Operation σ)), op.isAppend := by
  have operations : ∀ op ∈ (items.map operation : List (Operation σ)), op.isAppend := by
    intro op present
    obtain ⟨item, _, rfl⟩ := List.mem_map.mp present
    cases item <;> rfl
  intro op present
  rcases List.mem_cons.mp present with rfl | later
  · rfl
  · rcases List.mem_append.mp later with between | last
    · exact intersperse_isAppend rfl operations op between
    · obtain rfl := List.mem_singleton.mp last
      rfl

end Item

namespace Cursor

def takeItem (c : Cursor) : Option Item × Cursor :=
  match c.takeDelimited quoteByte quoteByte with
  | (some bytes, after) => (some (.text bytes), after.skipBlanks)
  | (none, c) =>
      match c.takeNumber with
      | (some value, after) => (some (.number value), after.skipBlanks)
      | (none, c) =>
          match c.takeBoolean with
          -- The position is past a boolean already.
          | (some value, after) => (some (.boolean value), after)
          | (none, c) => (none, c)

theorem takeItem_forward (c : Cursor) : Forward c c.takeItem.2 := by
  have first := scan_forward (.delimited quoteByte quoteByte) c
  unfold takeItem takeDelimited
  generalize c.scan (.delimited quoteByte quoteByte) = delimited at first
  rcases delimited with ⟨_ | bytes, c₁⟩
  · have second := first.trans (scan_forward .number c₁)
    dsimp only [takeNumber]
    generalize c₁.scan .number = number at second
    rcases number with ⟨_ | value, c₂⟩
    · have third := second.trans (scan_forward .boolean c₂)
      dsimp only [takeBoolean]
      generalize c₂.scan .boolean = boolean at third
      rcases boolean with ⟨_ | value, c₃⟩
      · exact third
      · exact third
    · exact second.trans (moved_forward _ c₂)
  · exact first.trans (moved_forward _ c₁)

def takeItems (c : Cursor) : List Item × Cursor :=
  match _taken : c.takeItem with
  | (none, after) => ([], after)
  | (some item, after) =>
      if _next : after.peek = some commaByte then
        let (others, last) := takeItems after.skipBlanks
        (item :: others, last)
      else ([item], after)
termination_by c.remaining
decreasing_by
  have forward := takeItem_forward c
  rw [_taken] at forward
  exact skipBlanks_remaining forward _next

theorem takeItem_text {c : Cursor} {bytes : Bytes} {stop : UInt8} {more : Bytes}
    (plain : ∀ b ∈ bytes, b ≠ quoteByte ∧ b ≠ 0) (ends : isBlank stop = false)
    (here : c.rest = quoteByte :: (bytes ++ quoteByte :: stop :: more)) :
    ∃ after, c.takeItem = (some (.text bytes), after) ∧ after.rest = stop :: more := by
  have inner : (bytes ++ quoteByte :: stop :: more).takeWhile
      (fun b => b != quoteByte && b != 0) = bytes := by
    apply takeWhile_before
    · intro b present
      simp [plain b present]
    · rintro b ⟨⟩
      rfl
  have taken : Scan.delimited quoteByte quoteByte c.rest = some (bytes, bytes.length + 1) := by
    rw [here]
    simp only [Scan.delimited, if_true, inner]
  have closing : (c.moved (bytes.length + 1)).rest = quoteByte :: stop :: more := by
    rw [rest_moved, here, List.drop_succ_cons, List.drop_left]
  refine ⟨(c.moved (bytes.length + 1)).skipBlanks, ?_, ?_⟩
  · simp only [takeItem, takeDelimited, scan_some taken]
  · apply skipBlanks_rest [] closing
    · simp
    · rintro b ⟨⟩
      exact ends

theorem delimited_none {b : UInt8} {bs : Bytes} (other : b ≠ quoteByte) :
    Scan.delimited quoteByte quoteByte (b :: bs) = none := by
  simp [Scan.delimited, other]

theorem takeItem_number {c : Cursor} {wanted : Nat} (enough : 17 ≤ wanted) (negative : Bool)
    (m : Magnitude) {stop : UInt8} {more : Bytes} (ends : isBlank stop = false)
    (outside : isNumeric stop = false)
    (here : c.rest = writeSignificant wanted (.finite negative m) ++ stop :: more) :
    ∃ after, c.takeItem = (some (.number (.finite negative m)), after) ∧
      after.rest = stop :: more := by
  have formed := Significant.written_wellFormed wanted negative m
  have numeric := DecimalText.numeric_text formed
  have present := DecimalText.text_ne_nil formed
  have taken := number_written enough negative m (stop :: more) (by rintro b ⟨⟩; exact outside)
  rw [Significant.text_written] at numeric present
  rw [← here] at taken
  generalize writeSignificant wanted (.finite negative m) = text at *
  have unquoted : Scan.delimited quoteByte quoteByte c.rest = none := by
    obtain ⟨b, bs, rfl⟩ := List.exists_cons_of_ne_nil present
    rw [here]
    apply delimited_none
    rintro rfl
    exact absurd (numeric quoteByte (by simp)) (by decide)
  obtain ⟨front, last, rfl⟩ := (List.eq_nil_or_concat text).resolve_left present
  have before : (c.moved ((front.concat last).length - 1)).rest = last :: stop :: more := by
    rw [rest_moved, here, List.length_concat, Nat.add_sub_cancel, List.concat_append,
      List.drop_left]
  -- The position is on the last byte of the number, which skipping blanks steps over.
  refine ⟨(c.moved ((front.concat last).length - 1)).skipBlanks, ?_, ?_⟩
  · simp only [takeItem, takeDelimited, scan_none unquoted, takeNumber, scan_some taken]
  · apply skipBlanks_rest [] before
    · simp
    · rintro b ⟨⟩
      exact ends

theorem takeItem_boolean {c : Cursor} (value : Bool) {rest : Bytes}
    (here : c.rest = utf8 (if value then "true" else "false") ++ rest) :
    ∃ after, c.takeItem = (some (.boolean value), after) ∧ after.rest = rest := by
  have letters : ∃ b bs, utf8 (if value then "true" else "false") = b :: bs ∧
      b ≠ quoteByte ∧ isNumeric b = false := by
    cases value
    · exact ⟨_, _, rfl, by decide, by decide⟩
    · exact ⟨_, _, rfl, by decide, by decide⟩
  have taken : Scan.boolean c.rest =
      some (value, (utf8 (if value then "true" else "false")).length) := by
    rw [here]
    cases value <;> rfl
  have unquoted : Scan.delimited quoteByte quoteByte c.rest = none := by
    obtain ⟨b, bs, same, other, _⟩ := letters
    rw [here, same]
    exact delimited_none other
  have letter : Scan.number c.rest = none := by
    obtain ⟨b, bs, same, _, outside⟩ := letters
    rw [here, same]
    simp [Scan.number, Scan.numericRun, outside]
  refine ⟨c.moved (utf8 (if value then "true" else "false")).length, ?_, ?_⟩
  · simp only [takeItem, takeDelimited, scan_none unquoted, takeNumber, scan_none letter,
      takeBoolean, scan_some taken]
  · rw [rest_moved, here, List.drop_left]

theorem takeItem_written {c : Cursor} {wanted : Nat} (enough : 17 ≤ wanted) {item : Item}
    (plain : item.IsPlain) {stop : UInt8} {more : Bytes} (ends : isBlank stop = false)
    (outside : isNumeric stop = false) (here : c.rest = item.written wanted ++ stop :: more) :
    ∃ after, c.takeItem = (some item, after) ∧ after.rest = stop :: more := by
  cases item with
  | text bytes =>
      apply takeItem_text plain ends
      simpa [Item.written] using here
  | number value =>
      obtain ⟨negative, m, rfl⟩ := plain
      exact takeItem_number enough negative m ends outside here
  | boolean value => exact takeItem_boolean value here

theorem takeItem_end {c : Cursor} (here : c.rest = utf8 "]") : c.takeItem = (none, c) := by
  have delimited : Scan.delimited quoteByte quoteByte c.rest = none := by rw [here]; rfl
  have number : Scan.number c.rest = none := by rw [here]; rfl
  have boolean : Scan.boolean c.rest = none := by rw [here]; rfl
  simp only [takeItem, takeDelimited, scan_none delimited, takeNumber, scan_none number,
    takeBoolean, scan_none boolean]

theorem written_head (wanted : Nat) {item : Item} (plain : item.IsPlain) :
    ∃ b bs, item.written wanted = b :: bs ∧ isBlank b = false := by
  cases item with
  | text bytes => exact ⟨quoteByte, _, rfl, by decide⟩
  | number value =>
      obtain ⟨negative, m, rfl⟩ := plain
      have formed := Significant.written_wellFormed wanted negative m
      obtain ⟨b, bs, same⟩ := List.exists_cons_of_ne_nil (DecimalText.text_ne_nil formed)
      have numeric := DecimalText.numeric_text formed b (by simp [same])
      rw [Significant.text_written] at same
      exact ⟨b, bs, same, isBlank_of_isNumeric numeric⟩
  | boolean value => cases value <;> exact ⟨_, _, rfl, by decide⟩

theorem takeItems_last {c after : Cursor} {item : Item} (taken : c.takeItem = (some item, after))
    (stops : after.peek ≠ some commaByte) : c.takeItems = ([item], after) := by
  rw [takeItems]
  split
  · next none => simp [taken] at none
  · next some =>
      rw [taken, Prod.mk.injEq, Option.some.injEq] at some
      obtain ⟨rfl, rfl⟩ := some
      rw [dif_neg stops]

theorem takeItems_more {c after last : Cursor} {item : Item} {others : List Item}
    (taken : c.takeItem = (some item, after)) (next : after.peek = some commaByte)
    (rest : after.skipBlanks.takeItems = (others, last)) :
    c.takeItems = (item :: others, last) := by
  rw [takeItems]
  split
  · next none => simp [taken] at none
  · next some =>
      rw [taken, Prod.mk.injEq, Option.some.injEq] at some
      obtain ⟨rfl, rfl⟩ := some
      rw [dif_pos next, rest]

theorem takeItems_following {c : Cursor} {wanted : Nat} (enough : 17 ≤ wanted) {item : Item}
    {others : List Item} (plain : ∀ other ∈ item :: others, other.IsPlain)
    (here : c.rest = item.written wanted ++ Item.following wanted others) :
    ∃ last, c.takeItems = (item :: others, last) ∧ last.rest = utf8 "]" := by
  induction others generalizing c item with
  | nil =>
      have first := List.forall_mem_singleton.mp plain
      obtain ⟨after, taken, closing⟩ := takeItem_written enough first
        (by decide) (by decide) here
      refine ⟨after, takeItems_last taken ?_, closing⟩
      rw [peek, closing]
      decide
  | cons other others ih =>
      obtain ⟨first, later⟩ := List.forall_mem_cons.mp plain
      obtain ⟨after, taken, comma⟩ := takeItem_written enough first
        (by decide) (by decide) here
      obtain ⟨b, bs, same, visible⟩ := written_head wanted
        (List.forall_mem_cons.mp later).1
      have next : after.peek = some commaByte := by
        rw [peek, comma]
        rfl
      -- The comma goes whatever it is, and the space after it because it is blank.
      have blank : after.skipBlanks.rest =
          other.written wanted ++ Item.following wanted others := by
        apply skipBlanks_rest [' '.toUInt8] comma
        · exact List.forall_mem_singleton.mpr rfl
        · rw [same]
          rintro b ⟨⟩
          exact visible
      obtain ⟨last, rest, closing⟩ := ih later blank
      exact ⟨last, takeItems_more taken next rest, closing⟩

theorem takeItems_listed {c : Cursor} {wanted : Nat} (enough : 17 ≤ wanted) {items : List Item}
    (plain : ∀ item ∈ items, item.IsPlain) (here : c.rest = Item.listedText wanted items) :
    ∃ last, c.skipBlanks.takeItems = (items, last) ∧ last.peek = some ']'.toUInt8 := by
  have closed : ∀ {last : Cursor}, last.rest = utf8 "]" → last.peek = some ']'.toUInt8 := by
    intro last closing
    rw [peek, closing]
    decide
  cases items with
  | nil =>
      have inside : c.skipBlanks.rest = utf8 "]" := by
        apply skipBlanks_rest [] here
        · simp
        · rintro b ⟨⟩
          rfl
      refine ⟨c.skipBlanks, ?_, closed inside⟩
      rw [takeItems]
      split
      · next none =>
          rw [takeItem_end inside, Prod.mk.injEq] at none
          rw [none.2]
      · next some => simp [takeItem_end inside] at some
  | cons item others =>
      obtain ⟨b, bs, same, visible⟩ := written_head wanted (List.forall_mem_cons.mp plain).1
      have inside : c.skipBlanks.rest =
          item.written wanted ++ Item.following wanted others := by
        apply skipBlanks_rest [] here
        · simp
        · simp only [Item.inside, same]
          rintro b ⟨⟩
          exact visible
      obtain ⟨last, taken, closing⟩ := takeItems_following enough plain inside
      exact ⟨last, taken, closed closing⟩

/-- A list written with at least seventeen digits reads back item by item. No append of it is
refused while memory lasts, which never holds more than `2 ^ 63` bytes in one buffer. -/
theorem listed_reads_back {σ : Type} {items : List Item} (plain : ∀ item ∈ items, item.IsPlain)
    (options : Options) (enough : 17 ≤ options.significantDigits.toNat) (allocator : Allocator) :
    ((∀ step, allocator step) → options.maxCapacity = none →
      options.initialCapacity.toNat ≤ 2 ^ 63 →
      (Item.listedText options.significantDigits.toNat items).length ≤ 2 ^ 63 →
      ∃ c, withOptions allocator options = .ok c ∧
        Granted (c.run allocator (Item.listed items : List (Operation σ))).answer) ∧
    ∀ c, withOptions allocator options = .ok c →
      Granted (c.run allocator (Item.listed items : List (Operation σ))).answer →
      ∃ r last,
        ofText (c.run allocator (Item.listed items : List (Operation σ))).cursor.written = .ok r ∧
        r.skipBlanks.takeItems = (items, last) ∧ last.peek = some ']'.toUInt8 := by
  have appends := Item.listed_isAppend (σ := σ) items
  constructor
  · intro granting unlimited initial total
    have allowed : options.allows options.initialCapacity.toNat := by
      simp [Options.allows, unlimited]
    refine ⟨⟨List.replicate options.initialCapacity.toNat options.fillByte, 0,
      options.initialCapacity.toNat, options⟩, ?_, ?_⟩
    · simp [withOptions, allowed, Allocator.starts, granting]
    · apply run_granted appends _ granting (Nat.le_refl _)
      · simpa [Item.contributions_listed] using total
      · exact ⟨Nat.zero_le _, unlimited, initial⟩
  · intro c made granted
    obtain ⟨_, _, rfl⟩ := withOptions_cases made
    have written := run_written appends (Nat.zero_le _) granted
    rw [Item.contributions_listed] at written
    change _ = [] ++ Item.listedText options.significantDigits.toNat items at written
    rw [written, List.nil_append]
    let r : Cursor := ⟨Item.listedText options.significantDigits.toNat items, 0, 0,
      { initialCapacity := .ofNat (Item.listedText options.significantDigits.toNat items).length }⟩
    obtain ⟨last, taken, closing⟩ := takeItems_listed enough plain (show r.rest = _ from rfl)
    exact ⟨r, last, rfl, taken, closing⟩

theorem listed_reads_back_mixed :
    let items : List Item :=
      [.text (utf8 " a,] "), .number (.finite true ⟨2 ^ 52, by decide⟩), .boolean true]
    let options : Options := ⟨2, '0'.toUInt8, 17, none⟩
    ∃ c r last, withOptions (fun _ => true) options = .ok c ∧
      ofText (c.run (fun _ => true) (Item.listed items : List (Operation Unit))).cursor.written =
        .ok r ∧
      r.skipBlanks.takeItems = (items, last) ∧ last.peek = some ']'.toUInt8 := by
  intro items options
  have plain : ∀ item ∈ items, item.IsPlain := by
    have clean : (utf8 " a,] ").all fun b => b ≠ quoteByte ∧ b ≠ 0 := by decide
    have text : (Item.text (utf8 " a,] ")).IsPlain := by simpa [Item.IsPlain] using clean
    simp only [items, List.forall_mem_cons]
    exact ⟨text, ⟨true, _, rfl⟩, trivial, by simp⟩
  obtain ⟨writes, reads⟩ := listed_reads_back (σ := Unit) plain options (by decide)
    (fun _ => true)
  obtain ⟨c, made, granted⟩ := writes (fun _ => rfl) rfl (by decide) (by decide +kernel)
  obtain ⟨r, last, fresh, taken, closing⟩ := reads c made granted
  exact ⟨c, r, last, made, fresh, taken, closing⟩

end Cursor

end ByteCursor
