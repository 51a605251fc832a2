import ByteCursor.Options.Json
import ByteCursor.Proofs.Json.Text

set_option autoImplicit false

namespace ByteCursor

namespace Json

@[simp] theorem Piece.decode?_plain (cs : List Char) :
    Piece.decode? (cs.map .plain) = some cs := by
  induction cs with
  | nil => rfl
  | cons c cs ih => simp [decode?, ih]

@[simp] theorem Number.toNat?_ofNat (n : Nat) : (ofNat n).toNat? = some n := by
  simp [ofNat, toNat?]

end Json

namespace Options

open Json

@[simp] theorem Field.ofName?_name (field : Field) : ofName? field.name.toList = some field := by
  cases field <;> decide

theorem Field.name_wellFormed (field : Field) :
    ∀ p ∈ field.name.toList.map Piece.plain, p.WellFormed := by
  cases field <;> decide

def copied (source target : Options) : Field → Options
  | .initialCapacity => { target with initialCapacity := source.initialCapacity }
  | .fillByte => { target with fillByte := source.fillByte }
  | .significantDigits => { target with significantDigits := source.significantDigits }
  | .maxCapacity => { target with maxCapacity := source.maxCapacity }

theorem set?_fieldValue (source target : Options) (field : Field) :
    target.set? field (source.fieldValue field) = some (source.copied target field) := by
  cases field with
  | initialCapacity =>
      have fits := source.initialCapacity.toNat_lt
      simp [set?, fieldValue, copied, setNumber, Field.bound, fits]
  | fillByte =>
      have fits := source.fillByte.toNat_lt
      simp [set?, fieldValue, copied, setNumber, Field.bound, fits]
  | significantDigits =>
      have fits := source.significantDigits.toNat_lt
      simp [set?, fieldValue, copied, setNumber, Field.bound, fits]
  | maxCapacity =>
      cases given : source.maxCapacity with
      | none => simp [set?, fieldValue, copied, given]
      | some limit =>
          have fits := limit.toNat_lt
          simp [set?, fieldValue, copied, setNumber, Field.bound, given, fits]

def member (options : Options) (field : Field) : List Piece × Value :=
  (field.name.toList.map .plain, options.fieldValue field)

theorem add?_member (source : Options) {draft : Draft} {field : Field}
    (fresh : field ∉ draft.given) : draft.add? (source.member field) =
      some ⟨source.copied draft.options field, field :: draft.given⟩ := by
  simp [Draft.add?, member, fresh, set?_fieldValue]

theorem foldlM_members (source : Options) {fields : List Field} (draft : Draft)
    (different : fields.Nodup) (fresh : ∀ field ∈ fields, field ∉ draft.given) :
    (fields.map source.member).foldlM Draft.add? draft =
      some ⟨fields.foldl source.copied draft.options, fields.reverse ++ draft.given⟩ := by
  induction fields generalizing draft with
  | nil => rfl
  | cons field fields ih =>
      obtain ⟨other, different⟩ := List.nodup_cons.mp different
      obtain ⟨first, later⟩ := List.forall_mem_cons.mp fresh
      have rest : ∀ next ∈ fields, next ∉ field :: draft.given := by
        intro next mem
        rw [List.mem_cons, not_or]
        exact ⟨fun same => other (same ▸ mem), later next mem⟩
      have ended := ih ⟨source.copied draft.options field, field :: draft.given⟩ different rest
      simp [add?_member source first, ended]

theorem ofValue?_toValue (options : Options) : ofValue? options.toValue = some options := by
  have members : options.toValue = .object (Field.all.map options.member) := rfl
  have different : Field.all.Nodup := by decide
  have all := foldlM_members options {} different (by simp)
  have copied : Field.all.foldl options.copied {} = options := rfl
  rw [members, ofValue?, ofMembers?, all, copied]
  rfl

theorem fieldValue_wellFormed (options : Options) (field : Field) :
    (options.fieldValue field).WellFormed := by
  cases field with
  | maxCapacity =>
      cases given : options.maxCapacity with
      | none => simpa [fieldValue, given] using Value.wellFormed_null
      | some limit =>
          simpa [fieldValue, given] using Value.wellFormed_number (Number.ofNat_wellFormed _)
  | _ => exact Value.wellFormed_number (Number.ofNat_wellFormed _)

theorem toValue_wellFormed (options : Options) : options.toValue.WellFormed := by
  apply Value.wellFormed_object
  intro member mem
  obtain ⟨field, _, rfl⟩ := List.mem_map.mp mem
  exact ⟨field.name_wellFormed, options.fieldValue_wellFormed field⟩

/-- Any options are read back from their text, and from every text that has the same tokens with
blanks put around them. -/
theorem read_back_spaced (options : Options) :
    ofText? options.toText = some options ∧
      Json.tokens? options.toText.toList = some options.toValue.tokens ∧
      ∀ text : String, Json.Spaced options.toValue.tokens text.toList →
        ofText? text = some options := by
  have formed := options.toValue_wellFormed
  have compact := options.toValue.spaced_text
  have read : ∀ text : String, Json.Spaced options.toValue.tokens text.toList →
      ofText? text = some options := by
    intro text spaced
    rw [ofText?, Value.ofText?_spaced formed spaced, Option.bind_some, ofValue?_toValue]
  exact ⟨read _ compact, compact.tokens?_eq formed options.toValue.tokens_apart, read⟩

theorem read_back_spaced_largest :
    let largest : Size := .ofNat (2 ^ 64 - 1)
    let options : Options := ⟨largest, 255, largest, some largest⟩
    let text := String.ofList
      (options.toValue.tokens.flatMap fun token => '\t' :: (token.text ++ ['\r', '\n', ' ']))
    Json.Spaced options.toValue.tokens text.toList ∧ ofText? text = some options := by
  intro largest options text
  have around : ∀ tokens : List Json.Token, Json.Spaced tokens
      (tokens.flatMap fun token => '\t' :: (token.text ++ ['\r', '\n', ' '])) := by
    intro tokens
    induction tokens with
    | nil => exact .done
    | cons token tokens ih =>
        simpa using Json.Spaced.blank '\t' rfl
          (.token token (.blank '\r' rfl (.blank '\n' rfl (.blank ' ' rfl ih))))
  have spaced : Json.Spaced options.toValue.tokens text.toList := by
    rw [String.toList_ofList]
    exact around _
  exact ⟨spaced, (read_back_spaced options).2.2 text spaced⟩

end Options

end ByteCursor
