import ByteCursor.Text.Invisible

set_option autoImplicit false

namespace ByteCursor

def codeEscape (c : Char) : String :=
  "\\u\x7b" ++ String.ofList (Nat.toDigits 16 c.toNat) ++ "\x7d"

def quotedChar : Char → String
  | '"' => "\\\""
  | '\\' => "\\\\"
  | '\t' => "\\t"
  | '\r' => "\\r"
  | '\n' => "\\n"
  | '\x00' => "\\0"
  | c => if isInvisible c || isExtending c then codeEscape c else String.singleton c

def quoted (text : String) : String :=
  "\"" ++ String.join (text.toList.map quotedChar) ++ "\""

example : quoted "e\u0301\u0378\x01" = "\"e\\u\x7b301\x7d\\u\x7b378\x7d\\u\x7b1\x7d\"" := by
  decide +kernel

end ByteCursor
