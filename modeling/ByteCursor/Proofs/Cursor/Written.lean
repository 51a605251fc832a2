import ByteCursor.Proofs.Cursor.Parts

set_option autoImplicit false

namespace ByteCursor

variable {σ : Type} {allocator : Allocator}

namespace Cursor

variable {c : Cursor}

theorem call_appends {call : Call σ} (appends : call.operation.isAppend)
    (inside : c.position ≤ c.capacity)
    (granted : (call.perform c).answer = .attempted (.ok ())) :
    (call.perform c).cursor.written =
      c.written ++ call.operation.contribution c.options.significantDigits.toNat := by
  rw [call.perform_parts appends] at granted ⊢
  change (c.appendParts _).cursor.written = _
  rw [appendParts_written _ inside, entered_of_granted (Reply.attempted.inj granted),
    call.bytes_parts]

def Granted (replies : List (Reply σ)) : Prop := ∀ reply ∈ replies, reply = .attempted (.ok ())

theorem run_written {ops : List (Operation σ)} (appends : ∀ op ∈ ops, op.isAppend)
    (inside : c.position ≤ c.capacity) (granted : Granted (c.run allocator ops).answer) :
    (c.run allocator ops).cursor.written =
      c.written ++ ops.flatMap (Operation.contribution c.options.significantDigits.toNat) := by
  induction ops generalizing c with
  | nil => simp
  | cons op ops ih =>
      obtain ⟨first, others⟩ := List.forall_mem_cons.mp granted
      obtain ⟨append, rest⟩ := List.forall_mem_cons.mp appends
      let call := op.asking allocator
      have onward := call_onward call inside
      change (run allocator (call.perform c).cursor ops).cursor.written = _
      rw [ih rest (call_inside call inside) others, call_appends append inside first,
        onward.options, List.flatMap_cons, List.append_assoc]
      rfl

-- All growth up to `limit` bytes is left to the allocator.
structure Roomy (limit : Nat) (c : Cursor) : Prop where
  inside : c.position ≤ c.capacity
  unlimited : c.options.maxCapacity = none
  growth : c.growth ≤ limit

theorem reserve_granted {limit count : Nat} (roomy : Roomy limit c)
    (granting : ∀ step, allocator step) (small : limit ≤ 2 ^ 63)
    (fits : c.position + count ≤ limit) :
    (c.reserve allocator count).answer = .ok () ∧
      (c.reserve allocator count).cursor.growth ≤ limit := by
  have step : max count c.growth ≤ limit := Nat.max_le.mpr ⟨by omega, roomy.growth⟩
  have allowed : ∀ size, c.options.allows size := by
    intro size
    simp [Options.allows, roomy.unlimited]
  unfold reserve
  by_cases room : count ≤ c.remaining
  · simp only [room, if_true]
    exact ⟨rfl, roomy.growth⟩
  · have addressable : ¬ 2 ^ 64 ≤ c.capacity + max count c.growth := by
      rw [remaining] at room
      omega
    simp only [room, addressable, allowed, granting, if_false, Bool.not_true, Bool.false_eq_true,
      true_and]
    exact step

structure Filled (limit count : Nat) (c : Cursor) (attempt : Attempt) : Prop where
  granted : attempt.answer = .ok ()
  roomy : Roomy limit attempt.cursor
  position : attempt.cursor.position = c.position + count

theorem append_filled {limit : Nat} (text : Bytes) (roomy : Roomy limit c)
    (granting : ∀ step, allocator step) (small : limit ≤ 2 ^ 63)
    (fits : c.position + text.length ≤ limit) :
    Filled limit text.length c (c.append allocator text) := by
  obtain ⟨reserved, growth⟩ := reserve_granted roomy granting small fits
  have changes := append_changes allocator text c roomy.inside
  have options := (changes_onward changes roomy.inside).options
  have within := changes_inside changes roomy.inside
  have granted : (c.append allocator text).answer = .ok () := by
    simp [append, Attempt.andThen, reserved, Attempt.done]
  have grown : (c.append allocator text).cursor.growth ≤ limit := by
    simpa [append, Attempt.andThen, reserved, Attempt.done, overwritten] using growth
  refine ⟨granted, ⟨within, options ▸ roomy.unlimited, grown⟩, ?_⟩
  rw [← length_written _ within, append_written roomy.inside granted, List.length_append,
    length_written _ roomy.inside]

theorem appendParts_filled {limit : Nat} {parts : List Part} (roomy : Roomy limit c)
    (granting : ∀ part ∈ parts, ∀ step, part.allocator step) (small : limit ≤ 2 ^ 63)
    (fits : c.position + (parts.map Part.bytes).flatten.length ≤ limit) :
    Filled limit (parts.map Part.bytes).flatten.length c (c.appendParts parts) := by
  induction parts generalizing c with
  | nil => exact ⟨rfl, roomy, rfl⟩
  | cons part parts ih =>
      obtain ⟨first, others⟩ := List.forall_mem_cons.mp granting
      rw [List.map_cons, List.flatten_cons, List.length_append] at fits ⊢
      have front := append_filled part.bytes roomy first small (by omega)
      have back := ih front.roomy others (by rw [front.position]; omega)
      have after : (c.appendParts (part :: parts)).cursor =
          ((c.append part.allocator part.bytes).cursor.appendParts parts).cursor :=
        (Attempt.andThen_granted front.granted).2
      refine ⟨(Attempt.andThen_granted front.granted).1.trans back.granted, ?_, ?_⟩
      · exact after ▸ back.roomy
      · rw [after, back.position, front.position, Nat.add_assoc]

theorem perform_filled {limit : Nat} {op : Operation σ} (appends : op.isAppend)
    (roomy : Roomy limit c) (granting : ∀ step, allocator step) (small : limit ≤ 2 ^ 63)
    (fits : c.position +
      (op.contribution c.options.significantDigits.toNat).length ≤ limit) :
    (c.perform allocator op).answer = .attempted (.ok ()) ∧
      Roomy limit (c.perform allocator op).cursor ∧
      (c.perform allocator op).cursor.position =
        c.position + (op.contribution c.options.significantDigits.toNat).length := by
  let call := op.asking allocator
  have asked : ∀ part ∈ call.parts c.options.significantDigits.toNat,
      ∀ step, part.allocator step := by
    intro part mem step
    obtain ⟨_, same⟩ := call.allocator_parts _ part mem
    exact same ▸ granting step
  have bytes := call.bytes_parts c.options.significantDigits.toNat
  have filled := appendParts_filled roomy asked small (by rw [bytes]; exact fits)
  rw [bytes] at filled
  have performed : c.perform allocator op = attempted (c.appendParts (call.parts _)) :=
    call.perform_parts appends c
  rw [performed]
  exact ⟨congrArg Reply.attempted filled.granted, filled.roomy, filled.position⟩

theorem run_granted {limit : Nat} {ops : List (Operation σ)} (appends : ∀ op ∈ ops, op.isAppend)
    (roomy : Roomy limit c) (granting : ∀ step, allocator step) (small : limit ≤ 2 ^ 63)
    (fits : c.position + (ops.flatMap
      (Operation.contribution c.options.significantDigits.toNat)).length ≤ limit) :
    Granted (c.run allocator ops).answer := by
  induction ops generalizing c with
  | nil => simp [Granted]
  | cons op ops ih =>
      obtain ⟨append, rest⟩ := List.forall_mem_cons.mp appends
      rw [List.flatMap_cons, List.length_append] at fits
      obtain ⟨first, further, position⟩ := perform_filled append roomy granting small (by omega)
      have onward : Onward c (c.perform allocator op).cursor := call_onward _ roomy.inside
      have others := ih rest further (by rw [position, onward.options]; omega)
      exact List.forall_mem_cons.mpr ⟨first, others⟩

end Cursor

end ByteCursor
