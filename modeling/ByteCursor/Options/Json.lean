import ByteCursor.Bytes
import ByteCursor.Json.Reader
import ByteCursor.Options.Basic

set_option autoImplicit false

namespace ByteCursor.Options

attribute [local instance] power

inductive Field
  | initialCapacity
  | fillByte
  | significantDigits
  | maxCapacity
  deriving Repr, DecidableEq

namespace Field

-- In the order in which an array gives them and in which they are written.
def all : List Field := [initialCapacity, fillByte, significantDigits, maxCapacity]

def name : Field → String
  | initialCapacity => "initial_capacity"
  | fillByte => "fill_byte"
  | significantDigits => "significant_digits"
  | maxCapacity => "max_capacity"

def bound : Field → Nat
  | fillByte => 2 ^ (8 : Nat)
  | _ => 2 ^ (64 : Nat)

def ofName? (name : List Char) : Option Field := all.find? fun field => field.name.toList == name

end Field

def setNumber (options : Options) (n : Nat) : Field → Options
  | .initialCapacity => { options with initialCapacity := .ofNat n }
  | .fillByte => { options with fillByte := .ofNat n }
  | .significantDigits => { options with significantDigits := .ofNat n }
  | .maxCapacity => { options with maxCapacity := some (.ofNat n) }

def set? (options : Options) : Field → Json.Value → Option Options
  | .maxCapacity, .null => some { options with maxCapacity := none }
  | field, .number literal => do
      let n ← literal.toNat?
      if n < field.bound then return options.setNumber n field else none
  | _, _ => none

structure Draft where
  options : Options := {}
  given : List Field := []

def Draft.add? (draft : Draft) (member : List Json.Piece × Json.Value) : Option Draft := do
  match Field.ofName? (← Json.Piece.decode? member.1) with
  | none => return draft
  | some field =>
      if field ∈ draft.given then none
      else return ⟨← draft.options.set? field member.2, field :: draft.given⟩

def ofMembers? (members : List (List Json.Piece × Json.Value)) : Option Options :=
  (members.foldlM Draft.add? {}).map Draft.options

def ofItems? (items : List Json.Value) : Option Options :=
  if items.length ≤ Field.all.length then
    (Field.all.zip items).foldlM (fun options (field, value) => options.set? field value) {}
  else none

def ofValue? : Json.Value → Option Options
  | .object members => ofMembers? members
  | .array items => ofItems? items
  | _ => none

def ofText? (text : String) : Option Options := (Json.Value.ofText? text).bind ofValue?

def fieldValue (options : Options) : Field → Json.Value
  | .initialCapacity => .number (.ofNat options.initialCapacity.toNat)
  | .fillByte => .number (.ofNat options.fillByte.toNat)
  | .significantDigits => .number (.ofNat options.significantDigits.toNat)
  | .maxCapacity =>
      match options.maxCapacity with
      | none => .null
      | some limit => .number (.ofNat limit.toNat)

def toValue (options : Options) : Json.Value :=
  .object (Field.all.map fun field =>
    (field.name.toList.map .plain, options.fieldValue field))

def toText (options : Options) : String := options.toValue.text

end ByteCursor.Options
