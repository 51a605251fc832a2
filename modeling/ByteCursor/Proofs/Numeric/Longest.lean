import ByteCursor.Proofs.Numeric.Grammar

set_option autoImplicit false

namespace ByteCursor

structure IsLongestFront (kind : UInt8 → Prop) (front bs : Bytes) : Prop where
  starts : front <+: bs
  inside : ∀ b ∈ front, kind b
  longest : ∀ other : Bytes, other <+: bs → (∀ b ∈ other, kind b) → other.length ≤ front.length

namespace IsLongestFront

variable {kind : UInt8 → Prop} {front other bs : Bytes}

theorem prefix_iff (longest : IsLongestFront kind front bs) (inside : ∀ b ∈ other, kind b) :
    other <+: bs ↔ other <+: front := by
  constructor
  · intro here
    exact List.prefix_of_prefix_length_le here longest.starts (longest.longest other here inside)
  · intro here
    exact here.trans longest.starts

theorem unique (first : IsLongestFront kind front bs) (second : IsLongestFront kind other bs) :
    front = other := by
  have length := first.longest other second.starts second.inside
  exact (second.prefix_iff first.inside).mp first.starts |>.eq_of_length_le length

end IsLongestFront

theorem takeWhile_isLongestFront {kind : UInt8 → Prop} {p : UInt8 → Bool}
    (same : ∀ b, p b ↔ kind b) (bs : Bytes) : IsLongestFront kind (bs.takeWhile p) bs := by
  refine ⟨List.takeWhile_prefix p, fun b mem => (same b).mp (mem_takeWhile mem), ?_⟩
  rintro other ⟨rest, rfl⟩ inside
  rw [List.takeWhile_append_of_pos fun b mem => (same b).mpr (inside b mem), List.length_append]
  exact Nat.le_add_right _ _

theorem isLongestFront_iff {kind : UInt8 → Prop} {p : UInt8 → Bool} (same : ∀ b, p b ↔ kind b)
    (front bs : Bytes) : IsLongestFront kind front bs ↔ front = bs.takeWhile p := by
  constructor
  · intro longest
    exact longest.unique (takeWhile_isLongestFront same bs)
  · rintro rfl
    exact takeWhile_isLongestFront same bs

/-- The laws of a scanner that goes on as far as it can. -/
structure IsGreedy {α : Type} (scan : Bytes → Option α) (text : α → Bytes) (formed : α → Prop) :
    Prop where
  starts : ∀ {bs : Bytes} {a : α}, scan bs = some a → text a <+: bs
  well : ∀ {bs : Bytes} {a : α}, scan bs = some a → formed a
  whole : ∀ {a : α}, formed a → scan (text a) = some a
  before : ∀ {a : α}, formed a → ∀ rest : Bytes,
    ∃ longer, scan (text a ++ rest) = some longer ∧ (text a).length ≤ (text longer).length

namespace IsGreedy

variable {α : Type} {scan : Bytes → Option α} {text : α → Bytes} {formed : α → Prop} {bs : Bytes}
  {a : α}

theorem longest (greedy : IsGreedy scan text formed) (scanned : scan bs = some a) {other : α}
    (well : formed other) (front : text other <+: bs) : (text other).length ≤ (text a).length := by
  obtain ⟨rest, rfl⟩ := front
  obtain ⟨longer, found, length⟩ := greedy.before well rest
  rw [scanned] at found
  exact Option.some.inj found ▸ length

theorem scan_eq (greedy : IsGreedy scan text formed) (well : formed a) (front : text a <+: bs)
    (longest : ∀ other, formed other → text other <+: bs → (text other).length ≤ (text a).length) :
    scan bs = some a := by
  obtain ⟨rest, rfl⟩ := front
  obtain ⟨longer, found, length⟩ := greedy.before well rest
  have beginning := greedy.starts found
  have same : text longer = text a := by
    have equal := Nat.le_antisymm (longest longer (greedy.well found) beginning) length
    rw [List.prefix_iff_eq_take.mp beginning, equal, List.take_left]
  have own := greedy.whole well
  rw [← same, greedy.whole (greedy.well found)] at own
  rw [found, own]

theorem eq_none_iff (greedy : IsGreedy scan text formed) :
    scan bs = none ↔ ∀ a, formed a → ¬ text a <+: bs := by
  constructor
  · rintro none a well ⟨rest, rfl⟩
    obtain ⟨longer, found, _⟩ := greedy.before well rest
    simp [none] at found
  · intro without
    cases scanned : scan bs with
    | none => rfl
    | some a => exact absurd (greedy.starts scanned) (without a (greedy.well scanned))

end IsGreedy

namespace DecimalText

variable {d : DecimalText}

theorem scan?_marked {e : ExponentText} (formed : d.WellFormed) (written : d.exponent = some e)
    (rest : Bytes) : scan? (d.text ++ rest) =
      some { d with exponent := some { e with digits := e.digits ++ rest.takeWhile isDigit } } := by
  have parts := splitSign_text formed rest
  have tail : d.tail ++ rest = fractionText d.fraction ++ (e.text ++ rest) := by
    simp [DecimalText.tail, written]
  have marker := (formed.exponent e written).marker
  have stops : ∀ b ∈ (e.text ++ rest).head?, isDigit b = false ∧ b ≠ pointByte := by
    rintro b ⟨⟩
    exact ⟨isDigit_of_isExponentMarker marker, point_of_isExponentMarker marker⟩
  have fraction := splitFraction_before formed.places stops
  have head : ∀ b ∈ (fractionText d.fraction ++ (e.text ++ rest)).head?, isDigit b = false := by
    cases d.fraction with
    | none => exact fun b front => (stops b front).1
    | some ds =>
        rintro b ⟨⟩
        decide
  have present : d.whole ≠ [] ∨
      (splitFraction (fractionText d.fraction ++ (e.text ++ rest))).1.getD [] ≠ [] := by
    rw [fraction]
    exact formed.present
  rw [List.append_assoc, tail] at parts
  rw [scan?_parts parts formed.whole head present, fraction,
    ExponentText.scan?_before (formed.exponent e written)]

theorem scan?_pointed {ds : Bytes} (formed : d.WellFormed) (unmarked : d.exponent = none)
    (written : d.fraction = some ds) (rest : Bytes) : scan? (d.text ++ rest) =
      some { d with
        fraction := some (ds ++ rest.takeWhile isDigit)
        exponent := ExponentText.scan? (rest.dropWhile isDigit) } := by
  have parts := splitSign_text formed rest
  have tail : d.tail ++ rest = pointByte :: (ds ++ rest) := by
    simp [DecimalText.tail, fractionText, written, unmarked]
  have places := isDigit_of_fraction formed written
  have fraction : splitFraction (pointByte :: (ds ++ rest)) =
      (some (ds ++ rest.takeWhile isDigit), rest.dropWhile isDigit) := by
    simp only [splitFraction, if_true, List.takeWhile_append_of_pos places,
      List.dropWhile_append_of_pos places]
  have stops : ∀ b ∈ (pointByte :: (ds ++ rest)).head?, isDigit b = false := by
    rintro b ⟨⟩
    decide
  have present : d.whole ≠ [] ∨ (splitFraction (pointByte :: (ds ++ rest))).1.getD [] ≠ [] := by
    have either := formed.present
    rw [DecimalText.places, written] at either
    rw [fraction]
    exact either.imp_right fun digits => List.append_ne_nil_of_left_ne_nil digits _
  rw [List.append_assoc, tail] at parts
  rw [scan?_parts parts formed.whole stops present, fraction]

theorem scan?_plain (formed : d.WellFormed) (unmarked : d.exponent = none)
    (pointless : d.fraction = none) (rest : Bytes) : scan? (d.text ++ rest) =
      some ⟨d.sign, d.whole ++ rest.takeWhile isDigit,
        (splitFraction (rest.dropWhile isDigit)).1,
        ExponentText.scan? (splitFraction (rest.dropWhile isDigit)).2⟩ := by
  have parts := splitSign_text formed rest
  have tail : d.tail = [] := by
    simp [DecimalText.tail, fractionText, unmarked, pointless]
  have whole : d.whole ≠ [] := by
    apply formed.present.resolve_right
    simp [DecimalText.places, pointless]
  have split : d.whole ++ rest =
      d.whole ++ rest.takeWhile isDigit ++ rest.dropWhile isDigit := by
    rw [List.append_assoc, List.takeWhile_append_dropWhile]
  have digits : ∀ b ∈ d.whole ++ rest.takeWhile isDigit, isDigit b := by
    intro b present
    rcases List.mem_append.mp present with front | back
    · exact formed.whole b front
    · exact mem_takeWhile back
  have stops : ∀ b ∈ (rest.dropWhile isDigit).head?, isDigit b = false := by
    intro b head
    have first := List.head?_dropWhile_not isDigit rest
    rw [Option.mem_def.mp head] at first
    simpa using first
  rw [tail, List.append_nil, split] at parts
  exact scan?_parts parts digits stops (.inl (List.append_ne_nil_of_left_ne_nil whole _))

theorem scan?_before (formed : d.WellFormed) (rest : Bytes) :
    ∃ longer, scan? (d.text ++ rest) = some longer ∧ d.text.length ≤ longer.text.length := by
  cases written : d.exponent with
  | some e =>
      refine ⟨_, scan?_marked formed written rest, ?_⟩
      simp only [text, written, Option.map_some, Option.getD_some, ExponentText.text,
        List.length_append, List.length_cons]
      omega
  | none =>
      cases point : d.fraction with
      | some ds =>
          refine ⟨_, scan?_pointed formed written point rest, ?_⟩
          simp only [text, written, point, fractionText, Option.map_none, Option.getD_none,
            Option.map_some, Option.getD_some, List.length_append, List.length_cons,
            List.length_nil]
          omega
      | none =>
          refine ⟨_, scan?_plain formed written point rest, ?_⟩
          simp only [text, written, point, fractionText, Option.map_none, Option.getD_none,
            List.length_append, List.length_nil]
          omega

theorem scan?_isGreedy : IsGreedy scan? text WellFormed where
  starts := text_prefix
  well := scan?_wellFormed
  whole := scan?_text
  before := scan?_before

structure IsLongest (d : DecimalText) (bs : Bytes) : Prop where
  formed : d.WellFormed
  front : d.text <+: bs
  longest : ∀ other : DecimalText, other.WellFormed → other.text <+: bs →
    other.text.length ≤ d.text.length

theorem scan?_iff_isLongest {bs : Bytes} : scan? bs = some d ↔ d.IsLongest bs := by
  constructor
  · intro scanned
    exact ⟨scan?_wellFormed scanned, text_prefix scanned, fun _ => scan?_isGreedy.longest scanned⟩
  · intro longest
    exact scan?_isGreedy.scan_eq longest.formed longest.front longest.longest

end DecimalText

theorem Word.scan?_before {letters : Bytes} {word : Word}
    (spelled : letters.map lowered = word.spelling) (rest : Bytes) :
    ∃ longer, scan? (letters ++ rest) = some longer ∧
      word.spelling.length ≤ longer.spelling.length := by
  have front : ((letters ++ rest).take word.spelling.length).map lowered = word.spelling := by
    rw [← spelled, List.length_map, List.take_left, spelled]
  have found : (scan? (letters ++ rest)).isSome :=
    List.find?_isSome.mpr ⟨word, by cases word <;> simp, beq_iff_eq.mpr front⟩
  obtain ⟨longer, same⟩ := Option.isSome_iff_exists.mp found
  have least : 3 ≤ longer.spelling.length := by cases longer <;> decide
  cases word with
  | infinity => exact ⟨.infinity, List.find?_cons_of_pos (beq_iff_eq.mpr front), Nat.le_refl _⟩
  | inf | nan => exact ⟨longer, same, least⟩

namespace Numeral

variable {n : Numeral} {bs : Bytes}

theorem scan?_before (formed : n.WellFormed) (rest : Bytes) :
    ∃ longer, scan? (n.text ++ rest) = some longer ∧ n.text.length ≤ longer.text.length := by
  cases n with
  | decimal d =>
      obtain ⟨longer, found, length⟩ := DecimalText.scan?_before formed rest
      refine ⟨.decimal longer, ?_, length⟩
      rw [scan?, text, scanWord?_decimalText formed, found]
      rfl
  | word sign kind letters =>
      obtain ⟨longer, found, length⟩ := Word.scan?_before formed.2 rest
      have spelled := congrArg List.length (Word.scan?_spelled found)
      have own := congrArg List.length formed.2
      rw [List.length_map] at spelled own
      refine ⟨.word sign longer ((letters ++ rest).take longer.spelling.length), ?_, ?_⟩
      · rw [scan?, text, List.append_assoc, scanWord?, splitSign_word formed rest]
        simp only [found, Option.map_some, Option.some_or]
      · simp only [text, List.length_append, spelled]
        omega

structure IsLongest (n : Numeral) (bs : Bytes) : Prop where
  formed : n.WellFormed
  front : n.text <+: bs
  longest : ∀ other : Numeral, other.WellFormed → other.text <+: bs →
    other.text.length ≤ n.text.length

theorem scan?_isGreedy : IsGreedy scan? text WellFormed where
  starts := text_prefix
  well := scan?_wellFormed
  whole := scan?_text
  before := scan?_before

theorem scan?_isLongest (scanned : scan? bs = some n) : n.IsLongest bs :=
  ⟨scan?_wellFormed scanned, text_prefix scanned, fun _ => scan?_isGreedy.longest scanned⟩

theorem IsLongest.scan? (longest : n.IsLongest bs) : scan? bs = some n :=
  scan?_isGreedy.scan_eq longest.formed longest.front longest.longest

theorem scan?_eq_none_iff :
    scan? bs = none ↔ ∀ n : Numeral, n.WellFormed → ¬ n.text <+: bs :=
  scan?_isGreedy.eq_none_iff

end Numeral

end ByteCursor
