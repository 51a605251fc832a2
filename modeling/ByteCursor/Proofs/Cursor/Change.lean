import ByteCursor.Cursor.Operation
import Mathlib.Algebra.Group.Nat.Defs
import Mathlib.Logic.Relation

set_option autoImplicit false

/-!
# What an operation does to a cursor

Every operation is made of three primitive changes: the position moves inside the buffer, the
buffer grows by a step that is at least the last one, or text that fits goes in at the position.
What a change keeps, an operation keeps, and so does a run.
-/

namespace ByteCursor.Cursor

variable {α σ : Type}

inductive Change (c : Cursor) : Cursor → Prop
  | move (position : Nat) (inside : position ≤ c.capacity) :
      Change c { c with position := position }
  | grow (step : Nat) (larger : c.growth ≤ step) (addressable : c.capacity + step < 2 ^ 64)
      (allowed : c.options.allows (c.capacity + step)) : Change c (c.grown step)
  | overwrite (text : Bytes) (fits : text.length ≤ c.remaining) : Change c (c.overwritten text)

abbrev Changes : Cursor → Cursor → Prop := Relation.ReflTransGen Change

theorem change_inside {c d : Cursor} (change : Change c d)
    (inside : c.position ≤ c.capacity) : d.position ≤ d.capacity := by
  cases change with
  | move position within => exact within
  | grow step =>
      rw [capacity_grown]
      exact Nat.le_add_right_of_le inside
  | overwrite text fits =>
      rw [capacity_overwritten text c inside fits]
      simp only [remaining] at fits
      simp only [overwritten]
      omega

theorem changes_inside {c d : Cursor} (changes : Changes c d)
    (inside : c.position ≤ c.capacity) : d.position ≤ d.capacity := by
  induction changes with
  | refl => exact inside
  | tail _ change ih => exact change_inside change ih

theorem changes_keep (keeps : Cursor → Cursor → Prop)
    (refl : ∀ c, keeps c c)
    (trans : ∀ a b c, keeps a b → keeps b c → keeps a c)
    (change : ∀ c d, c.position ≤ c.capacity → Change c d → keeps c d)
    {c d : Cursor} (inside : c.position ≤ c.capacity) (changes : Changes c d) :
    keeps c d := by
  induction changes with
  | refl => exact refl c
  | tail earlier last ih => exact trans _ _ _ ih (change _ _ (changes_inside earlier inside) last)

def Within (s : Scan α) : Prop :=
  ∀ bs value distance, s bs = some (value, distance) → distance ≤ bs.length

theorem within_byte : Within Scan.byte := by
  intro bs value distance found
  cases bs with
  | nil => cases found
  | cons b bs =>
      cases found
      simp

theorem pastBlanks_le (bs : Bytes) : Scan.pastBlanks bs ≤ bs.length := by
  cases bs with
  | nil => exact Nat.le_refl 0
  | cons b bs =>
      have run := (List.takeWhile_sublist isBlank (l := bs)).length_le
      simp only [Scan.pastBlanks, List.length_cons]
      omega

theorem within_delimited (opening closing : UInt8) : Within (Scan.delimited opening closing) := by
  intro bs value distance found
  cases bs with
  | nil => cases found
  | cons b bs =>
      simp only [Scan.delimited, Option.ite_none_right_eq_some, Option.some.injEq,
        Prod.mk.injEq] at found
      obtain ⟨_, _, rfl⟩ := found
      have inner := (List.takeWhile_sublist (fun b => b != closing && b != 0) (l := bs)).length_le
      simp only [List.length_cons]
      omega

theorem within_bytes (count : Nat) : Within (Scan.bytes count) := by
  intro bs value distance found
  simp only [Scan.bytes, Option.ite_none_right_eq_some, Option.some.injEq, Prod.mk.injEq] at found
  obtain ⟨fits, _, rfl⟩ := found
  exact fits

theorem within_numericRun : Within Scan.numericRun := by
  intro bs value distance found
  simp only [Scan.numericRun, Option.ite_none_left_eq_some, Option.some.injEq,
    Prod.mk.injEq] at found
  obtain ⟨_, _, rfl⟩ := found
  have run := (List.takeWhile_sublist isNumeric (l := bs)).length_le
  omega

theorem within_number : Within Scan.number := by
  intro bs value distance found
  obtain ⟨⟨run, _⟩, scanned, same⟩ := Option.map_eq_some_iff.mp found
  cases same
  exact within_numericRun bs run distance scanned

theorem within_literal (word : Bytes) (sentinel : σ) : Within (Scan.literal word sentinel) := by
  intro bs value distance found
  simp only [Scan.literal, Option.ite_none_right_eq_some, Option.some.injEq,
    Prod.mk.injEq] at found
  obtain ⟨starts, _, rfl⟩ := found
  exact (List.isPrefixOf_iff_prefix.mp starts).length_le

theorem within_boolean : Within Scan.boolean := by
  intro bs value distance found
  rcases Option.or_eq_some_iff.mp found with found | ⟨_, found⟩
  · exact within_literal _ _ bs value distance found
  · exact within_literal _ _ bs value distance found

theorem scan_changes (s : Scan α) (within : Within s) (c : Cursor)
    (inside : c.position ≤ c.capacity) : Changes c (c.scan s).2 := by
  unfold scan
  cases found : s c.rest with
  | none => exact .refl
  | some result =>
      obtain ⟨value, distance⟩ := result
      have bound := within c.rest value distance found
      rw [length_rest, remaining] at bound
      exact .single (.move (c.position + distance) (by omega))

theorem skipBlanks_changes (c : Cursor) (inside : c.position ≤ c.capacity) :
    Changes c c.skipBlanks := by
  have bound := pastBlanks_le c.rest
  rw [length_rest, remaining] at bound
  exact .single (.move (c.position + Scan.pastBlanks c.rest) (by omega))

theorem reserve_cases (allocator : Allocator) (count : Nat) (c : Cursor) :
    (count ≤ c.remaining ∧ c.reserve allocator count = .done c) ∨
      (Change c (c.grown (max count c.growth)) ∧ c.remaining < count ∧
        c.reserve allocator count = ⟨.ok (), c.grown (max count c.growth),
          [.grew c.capacity (c.capacity + max count c.growth)]⟩) ∨
      (c.remaining < count ∧ ∃ log, c.reserve allocator count =
        ⟨.error ⟨max count c.growth, c.capacity⟩, c, log⟩) := by
  unfold reserve
  by_cases fits : count ≤ c.remaining
  · exact .inl ⟨fits, by simp [fits]⟩
  · have short : c.remaining < count := Nat.lt_of_not_le fits
    simp only [fits, if_false]
    split
    · exact .inr (.inr ⟨short, [], rfl⟩)
    · next addressable =>
        split
        · exact .inr (.inr ⟨short, _, rfl⟩)
        · next allowed =>
            split
            · exact .inr (.inr ⟨short, _, rfl⟩)
            · next granted =>
                refine .inr (.inl ⟨?_, short, rfl⟩)
                apply Change.grow
                · exact Nat.le_max_right _ _
                · omega
                · simpa using allowed

theorem reserve_changes (allocator : Allocator) (count : Nat) (c : Cursor) :
    Changes c (c.reserve allocator count).cursor := by
  rcases reserve_cases allocator count c with ⟨_, same⟩ | ⟨grow, _, same⟩ | ⟨_, log, same⟩
  · rw [same]
    exact .refl
  · rw [same]
    exact .single grow
  · rw [same]

theorem remaining_grown (step : Nat) (c : Cursor) (inside : c.position ≤ c.capacity) :
    (c.grown step).remaining = c.remaining + step := by
  rw [remaining, capacity_grown, remaining]
  simp only [grown]
  omega

theorem remaining_of_reserve (allocator : Allocator) (count : Nat) (c : Cursor)
    (inside : c.position ≤ c.capacity) (granted : (c.reserve allocator count).answer = .ok ()) :
    count ≤ (c.reserve allocator count).cursor.remaining := by
  rcases reserve_cases allocator count c with ⟨fits, same⟩ | ⟨_, _, same⟩ | ⟨_, log, same⟩
  · rw [same]
    exact fits
  · rw [same, remaining_grown _ c inside]
    exact Nat.le_add_left_of_le (Nat.le_max_left _ _)
  · rw [same] at granted
    cases granted

theorem append_cases (allocator : Allocator) (text : Bytes) (c : Cursor)
    (inside : c.position ≤ c.capacity) :
    (∃ room, (c.reserve allocator text.length).cursor = room ∧ text.length ≤ room.remaining ∧
        (c.append allocator text).answer = .ok () ∧
        (c.append allocator text).cursor = room.overwritten text) ∨
      (∃ refusal, (c.append allocator text).answer = .error refusal ∧
        (c.append allocator text).cursor = c) := by
  unfold append
  rcases reserve_cases allocator text.length c with
    ⟨fits, same⟩ | ⟨_, short, same⟩ | ⟨_, log, same⟩
  · rw [same]
    exact .inl ⟨c, rfl, fits, rfl, rfl⟩
  · rw [same]
    refine .inl ⟨_, rfl, ?_, rfl, rfl⟩
    rw [remaining_grown _ c inside]
    exact Nat.le_add_left_of_le (Nat.le_max_left _ _)
  · rw [same]
    exact .inr ⟨_, rfl, rfl⟩

theorem append_changes (allocator : Allocator) (text : Bytes) (c : Cursor)
    (inside : c.position ≤ c.capacity) :
    Changes c (c.append allocator text).cursor := by
  rcases append_cases allocator text c inside with ⟨room, made, fits, _, same⟩ | ⟨_, _, same⟩
  · rw [same]
    have grown := reserve_changes allocator text.length c
    rw [made] at grown
    exact grown.tail (.overwrite text fits)
  · rw [same]

theorem andThen_changes {c : Cursor} {first : Attempt} {next : Cursor → Attempt}
    (before : Changes c first.cursor)
    (after : ∀ d, Changes c d → Changes d (next d).cursor) :
    Changes c (first.andThen next).cursor := by
  unfold Attempt.andThen
  split
  · exact before
  · exact before.trans (after _ before)

theorem appendParts_changes (parts : List Part) (c : Cursor) (inside : c.position ≤ c.capacity) :
    Changes c (c.appendParts parts).cursor := by
  induction parts generalizing c with
  | nil => exact .refl
  | cons part parts ih =>
      apply andThen_changes (append_changes part.allocator part.bytes c inside)
      intro d changes
      exact ih d (changes_inside changes inside)

theorem call_changes (call : Call σ) {c : Cursor} (inside : c.position ≤ c.capacity) :
    Changes c (call.perform c).cursor := by
  obtain ⟨op, allocators⟩ := call
  cases op with
  | byte => exact scan_changes _ within_byte c inside
  | skipBlanks => exact skipBlanks_changes c inside
  | delimited opening closing => exact scan_changes _ (within_delimited opening closing) c inside
  | bytes count => exact scan_changes _ (within_bytes count) c inside
  | numericRun => exact scan_changes _ within_numericRun c inside
  | number => exact scan_changes _ within_number c inside
  | literal word sentinel => exact scan_changes _ (within_literal word sentinel) c inside
  | boolean => exact scan_changes _ within_boolean c inside
  | accept word => exact scan_changes _ (within_literal word ()) c inside
  | reset => exact .single (.move 0 (Nat.zero_le _))
  | reserve count => exact reserve_changes (allocators 0) count c
  | append text => exact append_changes (allocators 0) text c inside
  | appendQuoted text => exact appendParts_changes (quotedParts allocators text) c inside
  | appendNumber value => exact append_changes (allocators 0) _ c inside

theorem call_inside (call : Call σ) {c : Cursor} (inside : c.position ≤ c.capacity) :
    (call.perform c).cursor.position ≤ (call.perform c).cursor.capacity :=
  changes_inside (call_changes call inside) inside

def after (c : Cursor) (calls : List (Call σ)) : Cursor := (c.runCalls calls).cursor

theorem after_append (c : Cursor) (earlier later : List (Call σ)) :
    c.after (earlier ++ later) = (c.after earlier).after later := by
  induction earlier generalizing c with
  | nil => rfl
  | cons call calls ih => exact ih (call.perform c).cursor

theorem after_changes (calls : List (Call σ)) {c : Cursor} (inside : c.position ≤ c.capacity) :
    Changes c (c.after calls) := by
  induction calls generalizing c with
  | nil => exact .refl
  | cons call calls ih => exact (call_changes call inside).trans (ih (call_inside call inside))

theorem after_inside (calls : List (Call σ)) {c : Cursor} (inside : c.position ≤ c.capacity) :
    (c.after calls).position ≤ (c.after calls).capacity :=
  changes_inside (after_changes calls inside) inside

end ByteCursor.Cursor
