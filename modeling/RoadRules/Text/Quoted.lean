import RoadRules.Text.Printable

set_option autoImplicit false

/-! # Quoted texts

A text in quotes, as messages show it. The quote is single unless the text holds a single quote
and no double one; a backslash, the quote itself and everything that is not printable are
escaped, the latter by the shortest of the forms `\xHH`, `\uHHHH` and `\UHHHHHHHH`. -/

namespace RoadRules.Text

/-- The last `width` hexadecimal digits of a number, in small letters. -/
def hexDigits (width n : Nat) : Text :=
  let digits := (Nat.toDigits 16 n).map CodePoint.char
  List.replicate (width - digits.length) (.char '0') ++ digits

def quoteFor (s : Text) : CodePoint :=
  if s.contains '\'' && !s.contains '"' then '"' else '\''

def escape (quote c : CodePoint) : Text :=
  if c == quote || c == '\\' then ['\\', c]
  else if c == '\n' then "\\n"
  else if c == '\r' then "\\r"
  else if c == '\t' then "\\t"
  else if isPrintable c then [c]
  else if c.code < 256 then "\\x" ++ hexDigits 2 c.code
  else if c.code < 65536 then "\\u" ++ hexDigits 4 c.code
  else "\\U" ++ hexDigits 8 c.code

def quoted (s : Text) : Text :=
  let quote := quoteFor s
  [quote] ++ s.flatMap (escape quote) ++ [quote]

end RoadRules.Text
