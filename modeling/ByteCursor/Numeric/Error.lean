set_option autoImplicit false

namespace ByteCursor

inductive NumberError
  | empty
  | malformed
  | outOfRange
  | trailing (offset : Nat)
  deriving Repr, DecidableEq

def NumberError.message : NumberError → String
  | empty => "empty numeric string"
  | malformed => "malformed numeric string"
  | outOfRange => "numeric value out of range"
  | trailing offset => s!"unexpected trailing characters at byte {offset}"

end ByteCursor
