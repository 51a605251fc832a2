import ByteCursor.Json.Token

set_option autoImplicit false

namespace ByteCursor.Json

inductive Value
  | null
  | bool (value : Bool)
  | number (literal : Number)
  | string (pieces : List Piece)
  | array (items : List Value)
  | object (members : List (List Piece × Value))
  deriving Repr

namespace Value

mutual

def tokens : Value → List Token
  | null => [.null]
  | bool b => [.bool b]
  | number n => [.number n]
  | string ps => [.string ps]
  | array [] => [.openBracket, .closeBracket]
  | array (item :: items) => .openBracket :: (item.tokens ++ moreItems items)
  | object [] => [.openBrace, .closeBrace]
  | object ((key, value) :: members) =>
      .openBrace :: .string key :: .colon :: (value.tokens ++ moreMembers members)

def moreItems : List Value → List Token
  | [] => [.closeBracket]
  | item :: items => .comma :: (item.tokens ++ moreItems items)

def moreMembers : List (List Piece × Value) → List Token
  | [] => [.closeBrace]
  | (key, value) :: members =>
      .comma :: .string key :: .colon :: (value.tokens ++ moreMembers members)

end

def text (v : Value) : String := String.ofList (v.tokens.flatMap Token.text)

end Value

end ByteCursor.Json
