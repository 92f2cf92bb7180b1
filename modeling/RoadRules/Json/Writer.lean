import RoadRules.Json

set_option autoImplicit false

/-! # Writing JSON

The text of a JSON value without white space. In a text only quotes, backslashes, control
characters and surrogates are escaped. A whole number is written in its digits; any other number
has the fewest digits that read back as the nearest floating-point number, and a point or an
exponent, so that it is read back as a number of the same kind. -/

namespace RoadRules.Json

open Text

def writtenPoint (c : CodePoint) : Text :=
  if c == '"' || c == '\\' then ['\\', c]
  else if c.isSurrogate || decide (c.code < 32) then "\\u" ++ hexDigits 4 c.code
  else [c]

def writtenText (s : Text) : Text := "\"" ++ s.flatMap writtenPoint ++ "\""

def writtenReal (n : Numeral) : Text :=
  let x := n.toFloat
  if x.isNaN then "NaN"
  else if x.isInf then if x < 0.0 then "-Infinity" else "Infinity"
  else Layout.shortest x

def writtenScalar : Scalar → Text
  | .null => "null"
  | .bool b => if b then "true" else "false"
  | .integer n => (Scalar.integer n).plain
  | .real n => writtenReal n
  | .text s => writtenText s

def separated (parts : List Text) : Text := joined "," parts

mutual

def written : Json → Text
  | .scalar v => writtenScalar v
  | .array items => "[" ++ separated (writtenItems items) ++ "]"
  | .object members => "\x7b" ++ separated (writtenMembers members) ++ "\x7d"

def writtenItems : List Json → List Text
  | [] => []
  | j :: rest => written j :: writtenItems rest

def writtenMembers : List (Text × Json) → List Text
  | [] => []
  | m :: rest => writtenMember m :: writtenMembers rest

def writtenMember : Text × Json → Text
  | (name, j) => writtenText name ++ ":" ++ written j

end

/-- The text of a value as a string. Surrogates are escaped, so every character stands for
itself. -/
def write (j : Json) : String := j.written.asString

end RoadRules.Json
