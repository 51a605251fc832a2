import ByteCursor.Numeric.Integer
import ByteCursor.Numeric.Reading
import ByteCursor.Text.Quoted

set_option autoImplicit false

namespace ByteCursor

inductive Level
  | trace
  | debug
  deriving Repr, DecidableEq

def Level.name : Level → String
  | trace => "TRACE"
  | debug => "DEBUG"

inductive Record
  | grew (before after : Nat)
  | limitReached (wanted : Nat)
  | allocatorRefused (step : Nat)
  | rejectedInteger (text : String) (error : NumberError)
  | rejectedNumber (text : String) (error : NumberError)
  deriving Repr, DecidableEq

namespace Record

def level : Record → Level
  | grew .. => .trace
  | _ => .debug

def message : Record → String
  | grew before after => s!"grew cursor buffer from {before} to {after} bytes"
  | limitReached wanted => s!"cursor buffer limit reached: {wanted} bytes requested"
  | allocatorRefused step => s!"allocator refused {step} more bytes for cursor buffer"
  | rejectedInteger text error => s!"rejected integer text {quoted text}: {error.message}"
  | rejectedNumber text error => s!"rejected numeric text {quoted text}: {error.message}"

def line (record : Record) : String := record.level.name ++ " " ++ record.message

end Record

def integerLog (text : String) : List Record :=
  match readInteger (utf8 text) with
  | .ok _ => []
  | .error error => [.rejectedInteger text error]

def numberLog (text : String) : List Record :=
  match readNumber (utf8 text) with
  | .ok _ => []
  | .error error => [.rejectedNumber text error]

end ByteCursor
