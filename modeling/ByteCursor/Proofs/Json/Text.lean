import ByteCursor.Json.Reader
import ByteCursor.Proofs.Numeric.Digits
import Mathlib.Data.List.Chain

set_option autoImplicit false

/-!
# The texts of JSON values

A token is scanned back from the front of any text that does not go on with it, and only a number
can be gone on with. No value has two numbers in a row, so its tokens are cut again wherever blanks
stand between them.
-/

namespace ByteCursor.Json

def IsDigits (cs : List Char) : Prop := cs ≠ [] ∧ ∀ c ∈ cs, c.isDigit

structure Exponent.WellFormed (e : Exponent) : Prop where
  marker : e.marker = 'e' ∨ e.marker = 'E'
  sign : ∀ c ∈ e.sign, c = '+' ∨ c = '-'
  digits : IsDigits e.digits

structure Number.WellFormed (n : Number) : Prop where
  whole : IsDigits n.whole
  first : n.whole.head? = some '0' → n.whole = ['0']
  fraction : ∀ ds ∈ n.fraction, IsDigits ds
  exponent : ∀ e ∈ n.exponent, e.WellFormed

def continuesNumber (c : Char) : Bool := c.isDigit || c == '.' || c == 'e' || c == 'E'

theorem continuesNumber_eq_false {c : Char} (stops : continuesNumber c = false) :
    c.isDigit = false ∧ c ≠ '.' ∧ c ≠ 'e' ∧ c ≠ 'E' := by
  simpa [continuesNumber, and_assoc] using stops

namespace Number

theorem digitsOf?_before {ds rest : List Char} (digits : IsDigits ds)
    (stops : ∀ c ∈ rest.head?, c.isDigit = false) : digitsOf? (ds ++ rest) = some ds := by
  have run : rest.takeWhile Char.isDigit = [] := by
    cases rest with
    | nil => rfl
    | cons c cs => simp [stops c rfl]
  have taken : (ds ++ rest).takeWhile Char.isDigit = ds := by
    rw [List.takeWhile_append_of_pos digits.2, run, List.append_nil]
  simp [digitsOf?, taken, digits.1]

theorem isDigit_head {ds : List Char} (digits : IsDigits ds) (rest : List Char) :
    ∃ c cs, ds ++ rest = c :: cs ∧ c.isDigit := by
  obtain ⟨present, all⟩ := digits
  cases ds with
  | nil => exact absurd rfl present
  | cons c cs => exact ⟨c, cs ++ rest, rfl, all c (by simp)⟩

theorem splitSign_before {sign : Option Char} {ds : List Char} (rest : List Char)
    (signs : ∀ c ∈ sign, c = '+' ∨ c = '-') (digits : IsDigits ds) :
    splitSign (sign.toList ++ (ds ++ rest)) = (sign, ds ++ rest) := by
  cases sign with
  | some c => rcases signs c rfl with rfl | rfl <;> rfl
  | none =>
      obtain ⟨c, cs, front, digit⟩ := isDigit_head digits rest
      rw [Option.toList_none, List.nil_append, front]
      unfold splitSign
      split <;> simp_all

theorem scanExponent?_text {e : Exponent} (formed : e.WellFormed) {rest : List Char}
    (stops : ∀ c ∈ rest.head?, c.isDigit = false) :
    scanExponent? (e.text ++ rest) = some e := by
  simp [Exponent.text, scanExponent?, splitSign_before rest formed.sign formed.digits,
    formed.marker, digitsOf?_before formed.digits stops]

theorem scanExponent?_none {rest : List Char} (stops : ∀ c ∈ rest.head?, c ≠ 'e' ∧ c ≠ 'E') :
    scanExponent? rest = none := by
  cases rest with
  | nil => rfl
  | cons c cs => simp [scanExponent?, stops c rfl]

theorem scanFraction?_none {rest : List Char} (stops : ∀ c ∈ rest.head?, c ≠ '.') :
    scanFraction? rest = none := by
  unfold scanFraction?
  split
  · exact absurd rfl (stops '.' rfl)
  · rfl

theorem scanWhole?_before {ds rest : List Char} (digits : IsDigits ds)
    (first : ds.head? = some '0' → ds = ['0']) (stops : ∀ c ∈ rest.head?, c.isDigit = false) :
    scanWhole? (ds ++ rest) = some ds := by
  unfold scanWhole?
  split
  · next front =>
      obtain ⟨c, cs, rfl⟩ := List.exists_cons_of_ne_nil digits.1
      obtain rfl : c = '0' := (List.cons.inj front).1
      rw [first rfl]
  · exact digitsOf?_before digits stops

def exponentText (n : Number) : List Char := (n.exponent.map Exponent.text).getD []

def fractionText (n : Number) : List Char := (n.fraction.map ('.' :: ·)).getD []

variable {n : Number} {rest : List Char}

theorem exponentText_head (formed : n.WellFormed)
    (stops : ∀ c ∈ rest.head?, continuesNumber c = false) :
    ∀ c ∈ (n.exponentText ++ rest).head?, c.isDigit = false ∧ c ≠ '.' := by
  unfold exponentText
  cases written : n.exponent with
  | none =>
      intro c head
      obtain ⟨digit, point, _⟩ := continuesNumber_eq_false (stops c head)
      exact ⟨digit, point⟩
  | some e =>
      rintro c ⟨⟩
      rcases (formed.exponent e written).marker with same | same <;> rw [same] <;> decide

theorem fractionText_head (formed : n.WellFormed)
    (stops : ∀ c ∈ rest.head?, continuesNumber c = false) :
    ∀ c ∈ (n.fractionText ++ (n.exponentText ++ rest)).head?, c.isDigit = false := by
  unfold fractionText
  cases written : n.fraction with
  | none => exact fun c head => (exponentText_head formed stops c head).1
  | some ds =>
      rintro c ⟨⟩
      decide

theorem scanFraction?_text (formed : n.WellFormed)
    (stops : ∀ c ∈ rest.head?, continuesNumber c = false) :
    scanFraction? (n.fractionText ++ (n.exponentText ++ rest)) = n.fraction := by
  have after := exponentText_head formed stops
  cases written : n.fraction with
  | none =>
      simpa [fractionText, written] using scanFraction?_none fun c head => (after c head).2
  | some ds =>
      simpa [fractionText, written, scanFraction?] using
        digitsOf?_before (formed.fraction ds written) fun c head => (after c head).1

theorem scanExponent?_exponentText (formed : n.WellFormed)
    (stops : ∀ c ∈ rest.head?, continuesNumber c = false) :
    scanExponent? (n.exponentText ++ rest) = n.exponent := by
  cases written : n.exponent with
  | none =>
      simpa [exponentText, written] using scanExponent?_none fun c head =>
        (continuesNumber_eq_false (stops c head)).2.2
  | some e =>
      simpa [exponentText, written] using scanExponent?_text (formed.exponent e written)
        fun c head => (continuesNumber_eq_false (stops c head)).1

theorem scanUnsigned?_text (formed : n.WellFormed)
    (stops : ∀ c ∈ rest.head?, continuesNumber c = false) :
    scanUnsigned? n.negative (n.whole ++ (n.fractionText ++ (n.exponentText ++ rest))) =
      some n := by
  have whole := scanWhole?_before formed.whole formed.first (fractionText_head formed stops)
  have fraction := scanFraction?_text formed stops
  have exponent := scanExponent?_exponentText formed stops
  have length : ((n.fraction.map ('.' :: ·)).getD []).length = n.fractionText.length := rfl
  simp [scanUnsigned?, whole, fraction, length, exponent]

theorem ofNat_wellFormed (n : Nat) : (ofNat n).WellFormed := by
  have digits : IsDigits (Nat.toDigits 10 n) :=
    ⟨Nat.toDigits_ne_nil, fun c mem => Nat.isDigit_of_mem_toDigits (by decide) (by decide) mem⟩
  refine ⟨digits, fun zero => ?_, by simp [ofNat], by simp [ofNat]⟩
  rcases Nat.eq_zero_or_pos n with rfl | positive
  · rfl
  · have first : (Nat.toDigits 10 n).head? = some '0' := zero
    have head : (ByteCursor.digits n).head? = some '0'.toUInt8 := by
      simp [ByteCursor.digits, first]
    exact absurd head (digits_head positive)

theorem text_eq (n : Number) : n.text =
    (if n.negative then ['-'] else []) ++ (n.whole ++ (n.fractionText ++ n.exponentText)) := by
  simp [text, fractionText, exponentText]

theorem scan?_text (formed : n.WellFormed)
    (stops : ∀ c ∈ rest.head?, continuesNumber c = false) : scan? (n.text ++ rest) = some n := by
  have unsigned := scanUnsigned?_text formed stops
  cases negative : n.negative with
  | true => simpa [text_eq, negative, scan?] using negative ▸ unsigned
  | false =>
      obtain ⟨c, cs, front, digit⟩ :=
        isDigit_head formed.whole (n.fractionText ++ (n.exponentText ++ rest))
      have minus : c ≠ '-' := by
        rintro rfl
        cases digit
      rw [negative, front] at unsigned
      simp only [text_eq, negative, Bool.false_eq_true, if_false, List.nil_append,
        List.append_assoc, front]
      unfold scan?
      split
      · simp_all
      · exact unsigned

end Number

namespace Piece

def WellFormed : Piece → Prop
  | plain c => c ≠ '"' ∧ c ≠ '\\' ∧ ¬ c < ' '
  | letter c => (letterValue? c).isSome
  | hex a b c d => [a, b, c, d].all isHexDigit

instance : DecidablePred WellFormed
  | plain c => inferInstanceAs (Decidable (c ≠ '"' ∧ c ≠ '\\' ∧ ¬ c < ' '))
  | letter c => inferInstanceAs (Decidable ((letterValue? c).isSome = true))
  | hex a b c d => inferInstanceAs (Decidable ([a, b, c, d].all isHexDigit = true))

theorem scan?_text {ps : List Piece} (formed : ∀ p ∈ ps, p.WellFormed) (rest : List Char) :
    scan? (ps.flatMap text ++ '"' :: rest) = some ps := by
  induction ps with
  | nil => rfl
  | cons p ps ih =>
      obtain ⟨first, others⟩ := List.forall_mem_cons.mp formed
      have later := ih others
      cases p with
      | plain c =>
          obtain ⟨quote, backslash, printed⟩ := first
          simp [text, scan?, backslash, printed, later]
      | letter c =>
          have other : c ≠ 'u' := by
            rintro rfl
            cases first
          have spelled : letterValue? c ≠ none := Option.isSome_iff_ne_none.mp first
          simp [text, scan?, other, spelled, later]
      | hex a b c d =>
          have all : [a, b, c, d].all isHexDigit := first
          simp [text, scan?, later, all]

end Piece

namespace Token

def isNumber : Token → Bool
  | number _ => true
  | _ => false

def WellFormed : Token → Prop
  | number n => n.WellFormed
  | string ps => ∀ p ∈ ps, p.WellFormed
  | _ => True

variable {token : Token} {rest : List Char}

theorem scan?_fixed (listed : token ∈ fixed) (rest : List Char) :
    scan? (token.text ++ rest) = some token := by
  simp only [fixed, List.mem_cons, List.not_mem_nil, or_false] at listed
  rcases listed with rfl | rfl | rfl | rfl | rfl | rfl | rfl | rfl | rfl <;> rfl

def beginsNumber (c : Char) : Bool := c.isDigit || c == '-'

theorem fixed_of_beginsNumber {c : Char} (begins : beginsNumber c) (cs : List Char) :
    fixed.find? (fun token => token.text.isPrefixOf (c :: cs)) = none := by
  have others : fixed.all fun token => token.text.head?.any fun first => !beginsNumber first := by
    decide
  rw [List.find?_eq_none]
  intro token listed starts
  have head := List.all_eq_true.mp others token listed
  obtain ⟨rest, front⟩ := List.isPrefixOf_iff_prefix.mp starts
  cases same : token.text with
  | nil => simp [same] at head
  | cons first _ =>
      obtain rfl : first = c := by simpa [same] using congrArg List.head? front
      simp [same, begins] at head

theorem number_head {n : Number} (formed : n.WellFormed) (rest : List Char) :
    ∃ c cs, n.text ++ rest = c :: cs ∧ beginsNumber c := by
  rw [n.text_eq]
  cases n.negative with
  | true => exact ⟨'-', _, rfl, rfl⟩
  | false =>
      obtain ⟨c, cs, front, digit⟩ :=
        Number.isDigit_head formed.whole (n.fractionText ++ n.exponentText ++ rest)
      exact ⟨c, cs, by simpa using front, by simp [beginsNumber, digit]⟩

theorem isBlank_of_beginsNumber {c : Char} (begins : beginsNumber c) : isBlank c = false := by
  apply Bool.eq_false_iff.mpr
  intro blank
  simp only [isBlank, Bool.or_eq_true, beq_iff_eq] at blank
  rcases blank with ((rfl | rfl) | rfl) | rfl <;> cases begins

theorem scan?_number {n : Number} (formed : n.WellFormed)
    (stops : ∀ c ∈ rest.head?, continuesNumber c = false) :
    scan? (n.text ++ rest) = some (number n) := by
  have scanned := Number.scan?_text formed stops
  obtain ⟨c, cs, front, begins⟩ := number_head formed rest
  rw [front] at scanned ⊢
  unfold scan?
  split
  · next quote =>
      obtain rfl : c = '"' := (List.cons.inj quote).1
      exact absurd begins (by decide)
  · simp [fixed_of_beginsNumber begins, scanned]

theorem scan?_string {ps : List Piece} (formed : ∀ p ∈ ps, p.WellFormed) (rest : List Char) :
    scan? ((string ps).text ++ rest) = some (string ps) := by
  simp [text, scan?, Piece.scan?_text formed]

theorem scan?_text (formed : token.WellFormed)
    (stops : token.isNumber → ∀ c ∈ rest.head?, continuesNumber c = false) :
    scan? (token.text ++ rest) = some token := by
  cases token with
  | number n => exact scan?_number formed (stops rfl)
  | string ps => exact scan?_string formed rest
  | bool value => cases value <;> exact scan?_fixed (by decide) rest
  | _ => exact scan?_fixed (by decide) rest

theorem text_head (formed : token.WellFormed) :
    ∃ c cs, token.text = c :: cs ∧ isBlank c = false ∧
      (token.isNumber = false → continuesNumber c = false) := by
  cases token with
  | number n =>
      obtain ⟨c, cs, front, begins⟩ := number_head formed []
      exact ⟨c, cs, by simpa [text] using front, isBlank_of_beginsNumber begins, by simp [isNumber]⟩
  | string ps => exact ⟨'"', _, rfl, by decide, fun _ => by decide⟩
  | bool value => cases value <;> exact ⟨_, _, rfl, by decide⟩
  | _ => exact ⟨_, _, rfl, by decide⟩

end Token

theorem tokens?_blank {c : Char} (blank : isBlank c) (cs : List Char) :
    tokens? (c :: cs) = tokens? cs := by
  rw [tokens?, if_pos blank]

theorem tokens?_token {token : Token} {rest : List Char} (formed : token.WellFormed)
    (stops : token.isNumber → ∀ c ∈ rest.head?, continuesNumber c = false) :
    tokens? (token.text ++ rest) = (tokens? rest).map (token :: ·) := by
  have scanned := Token.scan?_text formed stops
  obtain ⟨c, cs, front, blank, _⟩ := Token.text_head formed
  rw [front, List.cons_append] at scanned ⊢
  have behind : (cs ++ rest).drop (token.text.length - 1) = rest := by
    simp [front]
  rw [tokens?]
  simp [blank, scanned, behind]

inductive Spaced : List Token → List Char → Prop
  | done : Spaced [] []
  | blank {tokens : List Token} {cs : List Char} (c : Char) (blank : isBlank c)
      (others : Spaced tokens cs) : Spaced tokens (c :: cs)
  | token {tokens : List Token} {cs : List Char} (token : Token) (others : Spaced tokens cs) :
      Spaced (token :: tokens) (token.text ++ cs)

def Apart (tokens : List Token) : Prop :=
  tokens.IsChain fun first second => first.isNumber → second.isNumber = false

namespace Apart

variable {token : Token} {tokens : List Token}

theorem cons (other : token.isNumber = false) (apart : Apart tokens) : Apart (token :: tokens) :=
  List.isChain_cons.mpr ⟨fun _ _ number => by simp [other] at number, apart⟩

theorem append {first second : List Token} (front : Apart first) (back : Apart second)
    (other : ∀ token ∈ second.head?, token.isNumber = false) : Apart (first ++ second) :=
  List.isChain_append.mpr ⟨front, back, fun _ _ token head _ => other token head⟩

end Apart

namespace Spaced

variable {tokens : List Token} {cs : List Char}

theorem head (spaced : Spaced tokens cs) (formed : ∀ token ∈ tokens, token.WellFormed)
    (other : ∀ token ∈ tokens.head?, token.isNumber = false) :
    ∀ c ∈ cs.head?, continuesNumber c = false := by
  cases spaced with
  | done => simp
  | blank c blank others =>
      rintro _ ⟨⟩
      simp only [isBlank, Bool.or_eq_true, beq_iff_eq] at blank
      rcases blank with ((rfl | rfl) | rfl) | rfl <;> rfl
  | token token others =>
      obtain ⟨c, cs, front, _, stops⟩ := Token.text_head (formed token (by simp))
      rw [front]
      rintro _ ⟨⟩
      exact stops (other token rfl)

theorem tokens?_eq (spaced : Spaced tokens cs) (formed : ∀ token ∈ tokens, token.WellFormed)
    (apart : Apart tokens) : tokens? cs = some tokens := by
  induction spaced with
  | done => rw [tokens?]
  | blank c blank others ih => rw [tokens?_blank blank, ih formed apart]
  | token token others ih =>
      obtain ⟨first, later⟩ := List.forall_mem_cons.mp formed
      obtain ⟨next, rest⟩ := List.isChain_cons.mp apart
      have stops : token.isNumber → ∀ c ∈ _, continuesNumber c = false := fun number =>
        others.head later fun follower head => next follower head number
      rw [tokens?_token first stops, ih later rest, Option.map_some]

theorem compact (tokens : List Token) : Spaced tokens (tokens.flatMap Token.text) := by
  induction tokens with
  | nil => exact .done
  | cons token tokens ih => exact .token token ih

end Spaced

namespace Value

theorem moreItems_head (items : List Value) :
    ∀ token ∈ (moreItems items).head?, token.isNumber = false := by
  cases items <;> simp [moreItems, Token.isNumber]

theorem moreMembers_head (members : List (List Piece × Value)) :
    ∀ token ∈ (moreMembers members).head?, token.isNumber = false := by
  cases members <;> simp [moreMembers, Token.isNumber]

mutual

theorem tokens_apart (v : Value) : Apart v.tokens := by
  match v with
  | null | bool _ | number _ | string _ => exact .singleton _
  | array [] | object [] => exact .cons rfl (.singleton _)
  | array (item :: items) =>
      rw [tokens]
      exact .cons rfl (.append (tokens_apart item) (moreItems_apart items) (moreItems_head items))
  | object ((key, value) :: members) =>
      rw [tokens]
      have rest := Apart.append (tokens_apart value) (moreMembers_apart members)
        (moreMembers_head members)
      exact .cons rfl (.cons rfl (.cons rfl rest))

theorem moreItems_apart (items : List Value) : Apart (moreItems items) := by
  match items with
  | [] => exact .singleton _
  | item :: items =>
      rw [moreItems]
      exact .cons rfl (.append (tokens_apart item) (moreItems_apart items) (moreItems_head items))

theorem moreMembers_apart (members : List (List Piece × Value)) : Apart (moreMembers members) := by
  match members with
  | [] => exact .singleton _
  | (key, value) :: members =>
      rw [moreMembers]
      have rest := Apart.append (tokens_apart value) (moreMembers_apart members)
        (moreMembers_head members)
      exact .cons rfl (.cons rfl (.cons rfl rest))

end

def WellFormed (v : Value) : Prop := ∀ token ∈ v.tokens, token.WellFormed

theorem wellFormed_null : null.WellFormed := by simp [WellFormed, tokens, Token.WellFormed]

theorem wellFormed_number {n : Number} (formed : n.WellFormed) : (number n).WellFormed := by
  simpa [WellFormed, tokens, Token.WellFormed] using formed

theorem wellFormed_array {items : List Value} (formed : ∀ item ∈ items, item.WellFormed) :
    (array items).WellFormed := by
  have more : ∀ token ∈ moreItems items, token.WellFormed := by
    induction items with
    | nil => simp [moreItems, Token.WellFormed]
    | cons item items ih =>
        obtain ⟨here, others⟩ := List.forall_mem_cons.mp formed
        simpa [moreItems, Token.WellFormed, or_imp, forall_and] using ⟨here, ih others⟩
  cases items with
  | nil => simp [WellFormed, tokens, Token.WellFormed]
  | cons item items => simpa [WellFormed, tokens, moreItems, Token.WellFormed] using more

theorem wellFormed_object {members : List (List Piece × Value)}
    (formed : ∀ member ∈ members, (∀ p ∈ member.1, p.WellFormed) ∧ member.2.WellFormed) :
    (object members).WellFormed := by
  have more : ∀ token ∈ moreMembers members, token.WellFormed := by
    induction members with
    | nil => simp [moreMembers, Token.WellFormed]
    | cons member members ih =>
        obtain ⟨⟨key, value⟩, others⟩ := List.forall_mem_cons.mp formed
        simpa [moreMembers, Token.WellFormed, or_imp, forall_and] using ⟨key, value, ih others⟩
  cases members with
  | nil => simp [WellFormed, tokens, Token.WellFormed]
  | cons member members =>
      simpa [WellFormed, tokens, moreMembers, Token.WellFormed] using more

theorem ofText?_spaced {v : Value} (formed : v.WellFormed) {text : String}
    (spaced : Spaced v.tokens text.toList) : ofText? text = some v := by
  rw [ofText?, spaced.tokens?_eq formed v.tokens_apart, Option.bind_some, ofTokens?_tokens]

theorem spaced_text (v : Value) : Spaced v.tokens v.text.toList := by
  simpa [text] using Spaced.compact v.tokens

end Value

end ByteCursor.Json
