import ByteCursor.Proofs.Cursor.Bounds
import ByteCursor.Proofs.Cursor.Position
import ByteCursor.Proofs.Numeric.Classification
import ByteCursor.Proofs.Numeric.Range

set_option autoImplicit false

namespace ByteCursor

namespace DecimalText

variable {d : DecimalText}

theorem isLongest_run {run bs : Bytes} (longest : IsLongestFront (fun b => isNumeric b) run bs) :
    d.IsLongest bs ↔ d.IsLongest run := by
  -- Every byte of a decimal is numeric, so none is lost where the run ends.
  have front (d : DecimalText) (formed : d.WellFormed) : d.text <+: bs ↔ d.text <+: run :=
    longest.prefix_iff (numeric_text formed)
  constructor
  · rintro ⟨formed, here, most⟩
    exact ⟨formed, (front d formed).mp here, fun other well there =>
      most other well ((front other well).mpr there)⟩
  · rintro ⟨formed, here, most⟩
    exact ⟨formed, (front d formed).mpr here, fun other well there =>
      most other well ((front other well).mp there)⟩

theorem scan?_run {run bs : Bytes} (longest : IsLongestFront (fun b => isNumeric b) run bs) :
    scan? bs = scan? run := by
  ext d
  simp only [scan?_iff_isLongest, isLongest_run longest]

end DecimalText

section

variable {text : Bytes}

theorem frontNumber_of_read {v : Binary64} (spaceless : text.dropWhile isSpace = text)
    (read : readNumber text = .ok v) : frontNumber text = v := by
  cases scanned : Numeral.scan? text with
  | none => cases empty : text.isEmpty <;> simp [readNumber, spaceless, scanned, empty] at read
  | some n =>
      have longest : n.IsLongest (text.dropWhile isSpace) :=
        spaceless.symm ▸ Numeral.scan?_isLongest scanned
      rw [readNumber_longest longest] at read
      split at read
      · cases read
      · split at read <;> cases read
        simp [frontNumber, scanned]

theorem frontNumber_text {n : Numeral} (formed : n.WellFormed) : frontNumber n.text = n.value := by
  simp [frontNumber, Numeral.scan?_text formed]

end

namespace Cursor

variable {c : Cursor}

theorem takeNumber_run {run : Bytes}
    (longest : IsLongestFront (fun b => isNumeric b) run c.rest) :
    c.takeNumber =
      if run = [] then (none, c) else (some (frontNumber run), c.moved (run.length - 1)) := by
  by_cases empty : run = [] <;> simp [takeNumber, scan, number_longest longest, empty]

theorem takeNumber_fresh {text : Bytes} (present : text ≠ []) (numeric : ∀ b ∈ text, isNumeric b) :
    ∃ fresh after, ofText text = .ok fresh ∧ fresh.takeNumber = (some (frontNumber text), after) := by
  cases made : ofText text with
  | error => simp [ofText, present] at made
  | ok fresh =>
      obtain ⟨_, buffer, position, _⟩ := ofText_cases made
      have whole : IsLongestFront (fun b => isNumeric b) text fresh.rest := by
        rw [rest, buffer, position, List.drop_zero]
        exact ⟨List.prefix_rfl, numeric, fun other front _ => front.length_le⟩
      refine ⟨fresh, fresh.moved (text.length - 1), rfl, ?_⟩
      rw [takeNumber_run whole, if_neg present]

def Agrees (run : Bytes) (x : Binary64) : Except NumberError Binary64 → Prop
  | .ok v => x = v
  | .error .malformed => x = .zero false
  | .error (.trailing offset) =>
      ∃ fresh after, ofText (run.take offset) = .ok fresh ∧ fresh.takeNumber = (some x, after) ∧
        ∀ v, readNumber (run.take offset) = .ok v → x = v
  | .error .outOfRange =>
      x = .infinite (isMinus run.head?) ∨
        ∃ m, x = .finite (isMinus run.head?) m ∧ (m = .zero ∨ m.isSubnormal)
  | .error .empty => False

theorem frontNumber_agrees {run : Bytes} (present : run ≠ []) (numeric : ∀ b ∈ run, isNumeric b) :
    Agrees run (frontNumber run) (readNumber run) := by
  have spaceless := dropWhile_numeric numeric
  cases scanned : Numeral.scan? run with
  | none =>
      have malformed : readNumber run = .error .malformed := by
        simp [readNumber, spaceless, present, scanned]
      simp [malformed, Agrees, frontNumber, scanned]
  | some n =>
      have longest : n.IsLongest (run.dropWhile isSpace) := by
        rw [spaceless]
        exact Numeral.scan?_isLongest scanned
      have value : frontNumber run = n.value := by simp [frontNumber, scanned]
      rw [readNumber_longest longest, spaceless, Nat.sub_self, Nat.zero_add, value]
      split
      · next more =>
          have taken : run.take n.text.length = n.text :=
            (List.prefix_iff_eq_take.mp (Numeral.text_prefix scanned)).symm
          have inside : ∀ b ∈ n.text, isNumeric b := fun b mem =>
            numeric b ((Numeral.text_prefix scanned).subset mem)
          obtain ⟨fresh, after, made, found⟩ :=
            takeNumber_fresh (Numeral.text_ne_nil longest.formed) inside
          have front := frontNumber_text longest.formed
          simp only [Agrees, taken]
          refine ⟨fresh, after, made, front ▸ found, fun v read => ?_⟩
          rw [← front, frontNumber_of_read (dropWhile_numeric inside) read]
      · next whole =>
          have same : n.text = run := (Numeral.text_prefix scanned).eq_of_length_le (by omega)
          cases inside : n.inRange with
          | true => rfl
          | false =>
              have outside := value_of_not_inRange longest.formed inside
              rwa [same] at outside

/-- What a scan for a number answers is what reading its run of numeric bytes says, as far as that
goes. -/
theorem takeNumber_agrees (c : Cursor) :
    ∃ run, IsLongestFront (fun b => isNumeric b) run c.rest ∧
      (run = [] → c.takeNumber = (none, c)) ∧
      (run ≠ [] → ∃ x, c.takeNumber = (some x, { c with position := c.position + (run.length - 1) }) ∧
        Agrees run x (readNumber run)) ∧
      (∀ d : DecimalText, d.IsLongest c.rest ↔ d.IsLongest run) ∧
      DecimalText.scan? c.rest = DecimalText.scan? run := by
  have longest : IsLongestFront (fun b => isNumeric b) (c.rest.takeWhile isNumeric) c.rest :=
    takeWhile_isLongestFront (fun b => Iff.rfl) c.rest
  have found := takeNumber_run longest
  refine ⟨_, longest, fun empty => ?_, fun present => ?_, fun d => d.isLongest_run longest,
    DecimalText.scan?_run longest⟩
  · rw [found, if_pos empty]
  · refine ⟨_, ?_, frontNumber_agrees present longest.inside⟩
    rw [found, if_neg present]
    rfl

theorem takeNumber_agrees_marked :
    let c : Cursor := ⟨utf8 "[-1.5e+,", 1, 0, { initialCapacity := 8 }⟩
    readNumber (utf8 "-1.5e+") = .error (.trailing 4) ∧
      ∃ x, c.takeNumber = (some x, { c with position := 6 }) ∧
        ∀ v, readNumber (utf8 "-1.5") = .ok v → x = v := by
  intro c
  obtain ⟨run, longest, _, found, _⟩ := takeNumber_agrees c
  have same : run = utf8 "-1.5e+" :=
    (isLongestFront_iff (p := isNumeric) (fun b => Iff.rfl) run c.rest).mp longest
  subst same
  have refused : readNumber (utf8 "-1.5e+") = .error (.trailing 4) := by decide
  obtain ⟨x, moved, agrees⟩ := found (by decide)
  rw [refused] at agrees
  obtain ⟨_, _, _, _, read⟩ := agrees
  exact ⟨refused, x, moved, read⟩

end Cursor

end ByteCursor
