import ByteCursor.Json.Number
import ByteCursor.Json.Piece

set_option autoImplicit false

namespace ByteCursor.Json

inductive Token
  | openBrace
  | closeBrace
  | openBracket
  | closeBracket
  | colon
  | comma
  | null
  | bool (value : Bool)
  | number (literal : Number)
  | string (pieces : List Piece)
  deriving Repr, DecidableEq

namespace Token

def text : Token → List Char
  | openBrace => ['{']
  | closeBrace => ['}']
  | openBracket => ['[']
  | closeBracket => [']']
  | colon => [':']
  | comma => [',']
  | null => "null".toList
  | bool true => "true".toList
  | bool false => "false".toList
  | number n => n.text
  | string ps => '"' :: (ps.flatMap Piece.text ++ ['"'])

def fixed : List Token :=
  [openBrace, closeBrace, openBracket, closeBracket, colon, comma, null, bool true, bool false]

def scan? : List Char → Option Token
  | '"' :: cs => (Piece.scan? cs).map .string
  | cs => (fixed.find? fun token => token.text.isPrefixOf cs).or ((Number.scan? cs).map .number)

end Token

def isBlank (c : Char) : Bool := c == ' ' || c == '\t' || c == '\n' || c == '\r'

def tokens? (cs : List Char) : Option (List Token) :=
  match cs with
  | [] => some []
  | c :: rest =>
      if isBlank c then tokens? rest
      else match Token.scan? (c :: rest) with
        | none => none
        | some token => (tokens? (rest.drop (token.text.length - 1))).map (token :: ·)
termination_by cs.length
decreasing_by
  · simp
  · rw [List.length_drop, List.length_cons]
    omega

end ByteCursor.Json
