import ByteCursor.Proofs.Cursor.Change

set_option autoImplicit false

namespace ByteCursor

inductive Origin
  | text (bytes : Bytes)
  | capacity (size : Size)
  | options (options : Options)
  deriving Repr, DecidableEq

def Origin.cursor (allocator : Allocator) : Origin → Except CursorError Cursor
  | text bytes => Cursor.ofText bytes
  | capacity size => Cursor.withCapacity allocator size
  | options given => Cursor.withOptions allocator given

def Origin.isBlank : Origin → Bool
  | text _ => false
  | _ => true

namespace Cursor

variable {σ : Type}

structure Bounded (c : Cursor) : Prop where
  inside : c.position ≤ c.capacity
  limited : ∀ limit, c.options.maxCapacity = some limit → c.capacity ≤ limit.toNat

structure Onward (before after : Cursor) : Prop where
  options : after.options = before.options
  capacity : before.capacity ≤ after.capacity
  growth : before.growth ≤ after.growth

theorem Onward.refl (c : Cursor) : Onward c c := ⟨rfl, Nat.le_refl _, Nat.le_refl _⟩

theorem Onward.trans {a b c : Cursor} (first : Onward a b) (second : Onward b c) : Onward a c :=
  ⟨second.options.trans first.options, Nat.le_trans first.capacity second.capacity,
    Nat.le_trans first.growth second.growth⟩

theorem allows_iff (options : Options) (size : Nat) :
    options.allows size ↔ ∀ limit, options.maxCapacity = some limit → size ≤ limit.toNat := by
  unfold Options.allows
  cases options.maxCapacity <;> simp

theorem change_onward {c d : Cursor} (change : Change c d)
    (inside : c.position ≤ c.capacity) : Onward c d := by
  cases change with
  | move position within => exact ⟨rfl, Nat.le_refl _, Nat.le_refl _⟩
  | grow step larger => exact ⟨rfl, by simp, larger⟩
  | overwrite text fits =>
      exact ⟨rfl, Nat.le_of_eq (capacity_overwritten text c inside fits).symm, Nat.le_refl _⟩

theorem change_bounded {c d : Cursor} (change : Change c d)
    (bounded : Bounded c) : Bounded d := by
  refine ⟨change_inside change bounded.inside, ?_⟩
  cases change with
  | move position within => exact bounded.limited
  | grow step larger addressable allowed =>
      rw [capacity_grown]
      exact (allows_iff _ _).mp allowed
  | overwrite text fits =>
      rw [capacity_overwritten text c bounded.inside fits]
      exact bounded.limited

theorem changes_bounded {c d : Cursor} (changes : Changes c d)
    (bounded : Bounded c) : Bounded d := by
  induction changes with
  | refl => exact bounded
  | tail _ change ih => exact change_bounded change ih

theorem changes_onward {c d : Cursor} (changes : Changes c d)
    (inside : c.position ≤ c.capacity) : Onward c d :=
  changes_keep Onward Onward.refl (fun _ _ _ => Onward.trans)
    (fun _ _ within change => change_onward change within) inside changes

theorem changes_addressable {c d : Cursor} (changes : Changes c d) (inside : c.position ≤ c.capacity)
    (small : c.capacity < 2 ^ 64) : d.capacity < 2 ^ 64 := by
  induction changes with
  | refl => exact small
  | tail earlier change ih =>
      cases change with
      | move position within => exact ih
      | grow step larger addressable =>
          rw [capacity_grown]
          exact addressable
      | overwrite text fits =>
          rw [capacity_overwritten text _ (changes_inside earlier inside) fits]
          exact ih

theorem call_bounded (call : Call σ) {c : Cursor} (bounded : Bounded c) :
    Bounded (call.perform c).cursor :=
  changes_bounded (call_changes call bounded.inside) bounded

theorem call_onward (call : Call σ) {c : Cursor} (inside : c.position ≤ c.capacity) :
    Onward c (call.perform c).cursor :=
  changes_onward (call_changes call inside) inside

theorem after_bounded (calls : List (Call σ)) {c : Cursor} (bounded : Bounded c) :
    Bounded (c.after calls) :=
  changes_bounded (after_changes calls bounded.inside) bounded

theorem after_onward (calls : List (Call σ)) {c : Cursor} (inside : c.position ≤ c.capacity) :
    Onward c (c.after calls) :=
  changes_onward (after_changes calls inside) inside

theorem run_bounded (allocator : Allocator) (ops : List (Operation σ)) {c : Cursor}
    (bounded : Bounded c) : Bounded (c.run allocator ops).cursor :=
  after_bounded _ bounded

theorem run_onward (allocator : Allocator) (ops : List (Operation σ)) {c : Cursor}
    (inside : c.position ≤ c.capacity) : Onward c (c.run allocator ops).cursor :=
  after_onward _ inside

theorem ofText_cases {text : Bytes} {c : Cursor} (made : ofText text = .ok c) :
    text ≠ [] ∧ c.buffer = text ∧ c.position = 0 ∧ c.growth = 0 ∧
      c.options = { initialCapacity := .ofNat text.length } := by
  unfold ofText at made
  cases text with
  | nil => cases made
  | cons b bs =>
      cases made
      exact ⟨List.cons_ne_nil b bs, rfl, rfl, rfl, rfl⟩

theorem withOptions_cases {allocator : Allocator} {options : Options} {c : Cursor}
    (made : withOptions allocator options = .ok c) :
    options.allows options.initialCapacity.toNat ∧
      allocator.starts options.initialCapacity.toNat ∧
      c = ⟨List.replicate options.initialCapacity.toNat options.fillByte, 0,
        options.initialCapacity.toNat, options⟩ := by
  unfold withOptions at made
  dsimp only at made
  split at made
  · next granted =>
      cases made
      rw [Bool.and_eq_true] at granted
      exact ⟨granted.1, granted.2, rfl⟩
  · cases made

theorem blank_cases {allocator : Allocator} {origin : Origin} {c : Cursor}
    (made : origin.cursor allocator = .ok c) (blank : origin.isBlank) :
    withOptions allocator c.options = .ok c := by
  cases origin with
  | text bytes => cases blank
  | capacity size =>
      obtain ⟨_, _, rfl⟩ := withOptions_cases made
      exact made
  | options given =>
      obtain ⟨_, _, rfl⟩ := withOptions_cases made
      exact made

theorem cursor_start {allocator : Allocator} {origin : Origin} {c : Cursor}
    (made : origin.cursor allocator = .ok c) : c.position = 0 := by
  cases origin with
  | text bytes => exact (ofText_cases made).2.2.1
  | capacity size =>
      rw [(withOptions_cases made).2.2]
  | options given =>
      rw [(withOptions_cases made).2.2]

theorem cursor_bounded {allocator : Allocator} {origin : Origin} {c : Cursor}
    (made : origin.cursor allocator = .ok c) : Bounded c := by
  by_cases blank : origin.isBlank
  · obtain ⟨allowed, _, same⟩ := withOptions_cases (blank_cases made blank)
    rw [allows_iff] at allowed
    constructor
    · rw [same]
      exact Nat.zero_le _
    · intro limit given
      have size : c.capacity = c.options.initialCapacity.toNat := by
        rw [same, capacity, List.length_replicate]
      exact size ▸ allowed limit given
  · cases origin with
    | text bytes =>
        obtain ⟨_, _, start, _, options⟩ := ofText_cases made
        constructor
        · omega
        · intro limit given
          rw [options] at given
          cases given
    | capacity size => exact absurd rfl blank
    | options given => exact absurd rfl blank

theorem blank_growth {allocator : Allocator} {origin : Origin} {c : Cursor}
    (made : origin.cursor allocator = .ok c) (blank : origin.isBlank) :
    c.growth = c.options.initialCapacity.toNat := by
  obtain ⟨_, _, same⟩ := withOptions_cases (blank_cases made blank)
  rw [same]

def states : Cursor → List (Call σ) → List Cursor
  | c, [] => [c]
  | c, call :: calls => c :: states (call.perform c).cursor calls

theorem mem_states {c d : Cursor} {calls : List (Call σ)} (passed : d ∈ c.states calls) :
    ∃ earlier, earlier <+: calls ∧ d = c.after earlier := by
  induction calls generalizing c with
  | nil =>
      rw [states, List.mem_singleton] at passed
      exact ⟨[], List.nil_prefix, passed⟩
  | cons call calls ih =>
      rcases List.mem_cons.mp passed with rfl | later
      · exact ⟨[], List.nil_prefix, rfl⟩
      · obtain ⟨earlier, front, same⟩ := ih later
        exact ⟨call :: earlier, List.cons_prefix_cons.mpr ⟨rfl, front⟩, same⟩

theorem states_bounded (calls : List (Call σ)) {c : Cursor} (bounded : Bounded c) :
    ∀ d ∈ c.states calls, Bounded d := by
  intro d passed
  obtain ⟨earlier, _, rfl⟩ := mem_states passed
  exact after_bounded earlier bounded

theorem states_onward (calls : List (Call σ)) {c : Cursor} (inside : c.position ≤ c.capacity) :
    ∀ d ∈ c.states calls, Onward c d := by
  intro d passed
  obtain ⟨earlier, _, rfl⟩ := mem_states passed
  exact after_onward earlier inside

theorem states_pairwise (calls : List (Call σ)) {c : Cursor} (bounded : Bounded c) :
    (c.states calls).Pairwise Onward := by
  induction calls generalizing c with
  | nil => exact List.pairwise_singleton Onward c
  | cons call calls ih =>
      have next := call_bounded call bounded
      refine List.pairwise_cons.mpr ⟨fun d later => ?_, ih next⟩
      exact (call_onward call bounded.inside).trans (states_onward calls next.inside d later)

end Cursor

end ByteCursor
