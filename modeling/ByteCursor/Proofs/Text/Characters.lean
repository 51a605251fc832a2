import ByteCursor.Text.Utf8

set_option autoImplicit false

namespace ByteCursor

theorem encode_cases (c : Char) :
    (∃ b, String.utf8EncodeChar c = [b] ∧ b.toNat = c.toNat ∧ b.toNat < 128) ∨
      ∃ b bs, String.utf8EncodeChar c = b :: bs ∧ 128 ≤ b.toNat ∧ 128 ≤ c.toNat := by
  have number : c.val.toNat = c.toNat := rfl
  by_cases ascii : c.toNat ≤ 127
  · refine .inl ⟨UInt8.ofNat c.toNat, ?_, ?_⟩
    · simp only [String.utf8EncodeChar, number, ascii, if_true]
    · rw [UInt8.toNat_ofNat']
      omega
  · refine .inr ?_
    simp only [String.utf8EncodeChar, number, ascii, if_false]
    repeat' split
    all_goals
      refine ⟨_, _, rfl, ?_, by omega⟩
      rw [UInt8.toNat_ofNat']
      omega

def leadingSpaces : List Char := [' ', '\t', '\n', '\x0b', '\x0c', '\r']

def withoutLeadingSpace (text : String) : String :=
  .ofList (text.toList.dropWhile (leadingSpaces.contains ·))

theorem mem_leadingSpaces (c : Char) :
    c ∈ leadingSpaces ↔ c.toNat = 32 ∨ 9 ≤ c.toNat ∧ c.toNat ≤ 13 := by
  simp only [leadingSpaces, List.mem_cons, List.not_mem_nil, or_false, ← Char.toNat_inj]
  change c.toNat = 32 ∨ c.toNat = 9 ∨ c.toNat = 10 ∨ c.toNat = 11 ∨ c.toNat = 12 ∨ c.toNat = 13 ↔ _
  omega

theorem utf8_withoutLeadingSpace (text : String) :
    utf8 (withoutLeadingSpace text) = (utf8 text).dropWhile isSpace := by
  simp only [utf8, withoutLeadingSpace, String.toList_ofList]
  induction text.toList with
  | nil => rfl
  | cons c cs ih =>
      rcases encode_cases c with ⟨b, bytes, same, _⟩ | ⟨b, bs, bytes, high, wide⟩
      · have agree : isSpace b = leadingSpaces.contains c := by
          rw [Bool.eq_iff_iff, isSpace_iff, List.contains_iff_mem, mem_leadingSpaces, same]
        simp only [List.dropWhile_cons, List.flatMap_cons, bytes, List.singleton_append, agree]
        split
        · exact ih
        · simp only [List.flatMap_cons, bytes, List.singleton_append]
      · have byte : isSpace b = false := by
          rw [Bool.eq_false_iff, Ne, isSpace_iff]
          omega
        have char : leadingSpaces.contains c = false := by
          rw [Bool.eq_false_iff, Ne, List.contains_iff_mem, mem_leadingSpaces]
          omega
        simp only [List.dropWhile_cons, List.flatMap_cons, bytes, List.cons_append, byte, char,
          Bool.false_eq_true, if_false]

def isAscii (b : UInt8) : Bool := b.toNat < 128

theorem take_of_ascii {front back : Bytes} {chars : List Char}
    (same : front ++ back = chars.flatMap String.utf8EncodeChar) (ascii : ∀ b ∈ front, isAscii b) :
    (chars.take front.length).flatMap String.utf8EncodeChar = front := by
  induction front generalizing chars with
  | nil => rfl
  | cons b bs ih =>
      have low : b.toNat < 128 := of_decide_eq_true (ascii b List.mem_cons_self)
      cases chars with
      | nil => cases same
      | cons c cs =>
          rw [List.flatMap_cons, List.cons_append] at same
          rcases encode_cases c with ⟨d, bytes, _⟩ | ⟨d, ds, bytes, high, _⟩
          · rw [bytes, List.singleton_append, List.cons.injEq] at same
            have rest := ih same.2 fun x mem => ascii x (List.mem_cons_of_mem b mem)
            rw [List.length_cons, List.take_succ_cons, List.flatMap_cons, bytes, rest, same.1]
            rfl
          · rw [bytes, List.cons_append, List.cons.injEq] at same
            rw [same.1] at low
            omega

theorem toByteArray_eq (text : String) : text.toByteArray = (utf8 text).toByteArray := by
  have bytes : text.toByteArray = text.toList.utf8Encode := by
    rw [← String.toByteArray_ofList, String.ofList_toList]
  rw [bytes, List.utf8Encode, utf8]

theorem utf8ByteSize_eq (text : String) : text.utf8ByteSize = (utf8 text).length := by
  rw [String.utf8ByteSize, toByteArray_eq, List.size_toByteArray]

theorem utf8_textOf? {bs : Bytes} {text : String} (read : textOf? bs = some text) :
    utf8 text = bs := by
  simp only [textOf?, String.fromUTF8?, Option.dite_none_right_eq_some, Option.some.injEq] at read
  obtain ⟨valid, rfl⟩ := read
  exact List.toByteArray_inj.mp (toByteArray_eq _).symm

theorem textOf?_utf8 (text : String) : textOf? (utf8 text) = some text := by
  rw [textOf?, ← toByteArray_eq, String.fromUTF8?, dif_pos text.isValidUTF8]
  rfl

theorem exists_char_of_isAscii {b : UInt8} (ascii : isAscii b) :
    ∃ c, String.utf8EncodeChar c = [b] := by
  have low : b.toNat < 128 := of_decide_eq_true ascii
  have number : b.toUInt32.toNat = b.toNat := UInt8.toNat_toUInt32 b
  let c : Char := ⟨b.toUInt32, .inl (by omega)⟩
  rcases encode_cases c with ⟨d, bytes, same, _⟩ | ⟨_, _, _, _, wide⟩
  · exact ⟨c, by rw [bytes, UInt8.toNat_inj.mp (same.trans number)]⟩
  · have wide : 128 ≤ b.toUInt32.toNat := wide
    omega

theorem exists_utf8_of_ascii {bs : Bytes} (ascii : ∀ b ∈ bs, isAscii b) :
    ∃ text, utf8 text = bs := by
  induction bs with
  | nil => exact ⟨"", rfl⟩
  | cons b bs ih =>
      obtain ⟨first, others⟩ := List.forall_mem_cons.mp ascii
      obtain ⟨c, bytes⟩ := exists_char_of_isAscii first
      obtain ⟨text, same⟩ := ih others
      refine ⟨.ofList (c :: text.toList), ?_⟩
      rw [utf8, String.toList_ofList, List.flatMap_cons, bytes, List.singleton_append]
      exact congrArg (b :: ·) same

theorem isValid_of_ascii {text : String} {front back : Bytes} (same : front ++ back = utf8 text)
    (ascii : ∀ b ∈ front, isAscii b) : String.Pos.Raw.IsValid text ⟨front.length⟩ := by
  refine String.Pos.Raw.isValid_iff_exists_take_toList.mpr ⟨front.length, ?_⟩
  rw [utf8ByteSize_eq, utf8, String.toList_ofList, take_of_ascii same ascii]

end ByteCursor
