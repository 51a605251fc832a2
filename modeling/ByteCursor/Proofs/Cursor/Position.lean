import ByteCursor.Cursor.Scan
import ByteCursor.Proofs.Numeric.Longest

set_option autoImplicit false

namespace ByteCursor.Cursor

variable {α : Type}

structure Forward (before after : Cursor) : Prop where
  buffer : after.buffer = before.buffer
  position : before.position ≤ after.position

theorem Forward.trans {a b c : Cursor} (first : Forward a b) (second : Forward b c) :
    Forward a c :=
  ⟨second.buffer.trans first.buffer, Nat.le_trans first.position second.position⟩

theorem moved_forward (distance : Nat) (c : Cursor) : Forward c (c.moved distance) :=
  ⟨rfl, Nat.le_add_right _ _⟩

theorem scan_forward (s : Scan α) (c : Cursor) : Forward c (c.scan s).2 := by
  unfold scan
  split
  · exact ⟨rfl, Nat.le_refl _⟩
  · exact moved_forward _ c

theorem skipBlanks_remaining {c after : Cursor} (forward : Forward c after) {b : UInt8}
    (next : after.peek = some b) : after.skipBlanks.remaining < c.remaining := by
  obtain ⟨rest, same⟩ := List.head?_eq_some_iff.mp next
  have length := after.length_rest
  rw [same, List.length_cons] at length
  have step : 1 ≤ Scan.pastBlanks after.rest := by
    rw [same, Scan.pastBlanks]
    omega
  have position := forward.position
  simp only [remaining, capacity, skipBlanks, moved, forward.buffer] at length ⊢
  omega

theorem rest_moved (distance : Nat) (c : Cursor) :
    (c.moved distance).rest = c.rest.drop distance := by
  simp [rest, moved, List.drop_drop]

theorem scan_none {s : Scan α} {c : Cursor} (refused : s c.rest = none) :
    c.scan s = (none, c) := by
  rw [scan, refused]

theorem scan_some {s : Scan α} {c : Cursor} {value : α} {distance : Nat}
    (found : s c.rest = some (value, distance)) : c.scan s = (some value, c.moved distance) := by
  rw [scan, found]

theorem numericRun_longest {run bs : Bytes}
    (longest : IsLongestFront (fun b => isNumeric b) run bs) :
    Scan.numericRun bs = if run = [] then none else some (run, run.length - 1) := by
  have same := (isLongestFront_iff (p := isNumeric) (fun b => Iff.rfl) run bs).mp longest
  by_cases empty : run = [] <;> simp [Scan.numericRun, ← same, empty]

theorem number_longest {run bs : Bytes} (longest : IsLongestFront (fun b => isNumeric b) run bs) :
    Scan.number bs = if run = [] then none else some (frontNumber run, run.length - 1) := by
  rw [Scan.number, numericRun_longest longest]
  split <;> rfl

theorem skipBlanks_rest {c : Cursor} {b : UInt8} (blanks : Bytes) {more : Bytes}
    (here : c.rest = b :: (blanks ++ more)) (blank : ∀ b ∈ blanks, isBlank b)
    (stops : ∀ b ∈ more.head?, isBlank b = false) : c.skipBlanks.rest = more := by
  have run := takeWhile_before blank stops
  rw [skipBlanks, rest_moved, here, Scan.pastBlanks, run, Nat.add_comm, List.drop_succ_cons,
    List.drop_left]

end ByteCursor.Cursor
