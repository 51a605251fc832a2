import ByteCursor.Bytes

set_option autoImplicit false

namespace ByteCursor

def firstChar? (bs : Bytes) : Option Char := (bs.take 4).toByteArray.utf8DecodeChar? 0

def textOf? (bs : Bytes) : Option String := String.fromUTF8? bs.toByteArray

end ByteCursor
