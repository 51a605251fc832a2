import ByteCursor.Proofs.Cursor.Position

set_option autoImplicit false

namespace ByteCursor

variable {α : Type}

theorem takeWhile_nul {p : UInt8 → Bool} (stops : p 0 = false) (bs more : Bytes) :
    (bs ++ 0 :: more).takeWhile p = bs.takeWhile p := by
  induction bs with
  | nil => simp [stops]
  | cons b bs ih =>
      rw [List.cons_append, List.takeWhile_cons, List.takeWhile_cons, ih]

theorem numericRun_nul (bs more : Bytes) :
    Scan.numericRun (bs ++ 0 :: more) = Scan.numericRun bs := by
  have run : (bs ++ 0 :: more).takeWhile isNumeric = bs.takeWhile isNumeric :=
    takeWhile_nul (by decide) bs more
  rw [Scan.numericRun, run]
  rfl

theorem number_nul (bs more : Bytes) : Scan.number (bs ++ 0 :: more) = Scan.number bs := by
  rw [Scan.number, numericRun_nul]
  rfl

theorem delimited_nul (opening closing : UInt8) (bs more : Bytes) :
    Scan.delimited opening closing (bs ++ 0 :: more) = Scan.delimited opening closing bs ↔
      bs ≠ [] ∨ opening ≠ 0 := by
  cases bs with
  | nil =>
      by_cases opens : opening = 0
      · simp [Scan.delimited, opens]
      · simp [Scan.delimited, opens, Ne.symm opens]
  | cons b bs =>
      have inner : (bs ++ 0 :: more).takeWhile (fun b => b != closing && b != 0) =
          bs.takeWhile fun b => b != closing && b != 0 := takeWhile_nul (by simp) bs more
      simp [Scan.delimited, inner]

namespace Cursor

def Agree (first second : α × Cursor) : Prop :=
  second.1 = first.1 ∧ second.2.position = first.2.position

theorem scan_agree_iff (s : Scan α) {c d : Cursor} (together : d.position = c.position) :
    Agree (c.scan s) (d.scan s) ↔ s d.rest = s c.rest := by
  cases first : s c.rest with
  | none =>
      rw [scan_none first]
      cases second : s d.rest with
      | none => simp [Agree, scan_none second, together]
      | some found => simp [Agree, scan_some second]
  | some found =>
      rw [scan_some first]
      cases second : s d.rest with
      | none => simp [Agree, scan_none second]
      | some other => simp [Agree, scan_some second, moved, together, Prod.ext_iff]

/-- Whatever stands behind a NUL, the scans for numbers and for delimited texts do as if the buffer
ended there, except for a delimited text that is to begin with the NUL itself. -/
theorem nul_ends_extraction (text more : Bytes) (short long : Cursor) (ends : short.buffer = text)
    (goes_on : long.buffer = text ++ 0 :: more) (together : long.position = short.position)
    (inside : short.position ≤ text.length) :
    Agree short.takeNumericRun long.takeNumericRun ∧ Agree short.takeNumber long.takeNumber ∧
      ∀ opening closing, Agree (short.takeDelimited opening closing)
          (long.takeDelimited opening closing) ↔
        short.position < text.length ∨ opening ≠ 0 := by
  have left : long.rest = short.rest ++ 0 :: more := by
    rw [rest, goes_on, together, List.drop_append_of_le_length inside, rest, ends]
  have more_left : short.rest ≠ [] ↔ short.position < text.length := by
    rw [← List.length_pos_iff, length_rest, remaining, capacity, ends]
    omega
  refine ⟨?_, ?_, fun opening closing => ?_⟩
  · exact (scan_agree_iff _ together).mpr (left ▸ numericRun_nul _ _)
  · exact (scan_agree_iff _ together).mpr (left ▸ number_nul _ _)
  · rw [← more_left, ← delimited_nul opening closing short.rest more, ← left]
    exact scan_agree_iff _ together

-- The parenthesis behind the NUL closes nothing, and the NUL at the end of the text opens something
-- only where it is there.
theorem nul_ends_extraction_unclosed :
    let options : Options := { initialCapacity := 3 }
    let short : Cursor := ⟨utf8 "x(7", 0, 0, options⟩
    let long : Cursor := ⟨utf8 "x(7\x008)", 0, 0, { options with initialCapacity := 6 }⟩
    ofText (utf8 "x(7") = .ok short ∧ ofText (utf8 "x(7\x008)") = .ok long ∧
      (short.moved 1).takeDelimited 40 41 = (some (utf8 "7"), short.moved 3) ∧
      Agree ((short.moved 1).takeDelimited 40 41) ((long.moved 1).takeDelimited 40 41) ∧
      ¬ Agree ((short.moved 3).takeDelimited 0 41) ((long.moved 3).takeDelimited 0 41) := by
  intro options short long
  obtain ⟨_, _, inner⟩ := nul_ends_extraction (utf8 "x(7") (utf8 "8)") (short.moved 1)
    (long.moved 1) rfl rfl rfl (by decide)
  obtain ⟨_, _, ended⟩ := nul_ends_extraction (utf8 "x(7") (utf8 "8)") (short.moved 3)
    (long.moved 3) rfl rfl rfl (by decide)
  exact ⟨rfl, rfl, rfl, (inner 40 41).mpr (by decide), mt (ended 0 41).mp (by decide)⟩

end Cursor

end ByteCursor
