import Shading.Text.Hidden
import Shading.Text.Extending

/-! A character is shown in quotes, by its code point where it could not be seen. -/

namespace Shading.Text

/-- A code point in lower-case hexadecimal digits without padding. -/
def hexadecimal (c : Char) : String :=
  String.ofList (Nat.toDigits 16 c.toNat)

/-- What stands between the quotes for a character. -/
def escaped (c : Char) : String :=
  -- The usual control characters, the quote and the backslash have escapes of their own.
  if c = '\x00' then "\\0"
  else if c = '\t' then "\\t"
  else if c = '\n' then "\\n"
  else if c = '\r' then "\\r"
  else if c = '\x27' then "\\'"
  else if c = '\x5c' then "\\\\"
  -- What cannot be seen, or would join the quote, is given by its code point.
  else if isExtending c || isHidden c then "\\u\x7b" ++ hexadecimal c ++ "\x7d"
  else c.toString

/-- A character as error messages show it. -/
def quoted (c : Char) : String :=
  "'" ++ escaped c ++ "'"

end Shading.Text
