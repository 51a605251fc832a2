import ByteCursor.Numeric.Error
import ByteCursor.Numeric.Numeral

set_option autoImplicit false

namespace ByteCursor

def readNumber (text : Bytes) : Except NumberError Binary64 :=
  let body := text.dropWhile isSpace
  if body.isEmpty then .error .empty
  else match Numeral.scan? body with
    | none => .error .malformed
    | some numeral =>
        let used := numeral.text.length
        if used < body.length then .error (.trailing (text.length - body.length + used))
        else if numeral.inRange then .ok numeral.value
        else .error .outOfRange

def frontNumber (text : Bytes) : Binary64 :=
  ((Numeral.scan? text).map Numeral.value).getD (.zero false)

end ByteCursor
