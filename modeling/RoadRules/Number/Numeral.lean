import RoadRules.Text.Blank
import RoadRules.Text.Digit

set_option autoImplicit false

/-! # Numerals

A numeral is a number as it is written: a decimal with its digits and exponent kept exactly, one
of the two infinities, or the undefined number. Which floating-point or exact number it stands for
is decided elsewhere.

Three readers differ in what they allow around the same core grammar, a sign, digits with a point
and an exponent, or one of the words `inf`, `infinity` and `nan`:

* `ofText?` is for texts that people write: digits of any script, single underscores between
  digits, white space around the whole;
* `ofField?` is for texts in the fields of a document: ASCII digits, and single underscores
  anywhere inside a text without white space;
* the number reader of JSON builds on `Decimal` directly. -/

namespace RoadRules

open Text

/-- A number in decimal notation: the digits as one natural number, times a power of ten. -/
structure Decimal where
  negative : Bool
  /-- The digits without the point. -/
  digits : Nat
  /-- The power of ten that the digits are multiplied by. -/
  exponent : Int
deriving DecidableEq, Repr

namespace Decimal

def ofNat (n : Nat) : Decimal := ⟨false, n, 0⟩

def ofInt (n : Int) : Decimal := ⟨decide (n < 0), n.natAbs, 0⟩

/-- The decimal with the given digits before and after the point. -/
def ofParts (negative : Bool) (whole fraction : Text) (exponent : Int) : Decimal :=
  ⟨negative, digitsValue ((whole ++ fraction).filterMap digitValue?),
    exponent - (fraction.length : Int)⟩

end Decimal

/-- A number as it is written. -/
inductive Numeral where
  | finite (value : Decimal)
  | infinite (negative : Bool)
  | undefined
deriving DecidableEq, Repr

namespace Numeral

def ofNat (n : Nat) : Numeral := .finite (.ofNat n)

def ofInt (n : Int) : Numeral := .finite (.ofInt n)

/-- A decimal with the given number of places after the point. -/
def ofPlaces (digits places : Nat) : Numeral := .finite ⟨false, digits, -(places : Int)⟩

/-- The sign in front of a text and the rest of it. -/
def splitSign : Text → Bool × Text
  | .char '-' :: rest => (true, rest)
  | .char '+' :: rest => (false, rest)
  | rest => (false, rest)

/-- The exponent that a text consists of; the empty text is the exponent zero. -/
def exponent? : Text → Option Int
  | [] => some 0
  | c :: rest =>
    if c == 'e' || c == 'E' then
      let (negative, digits) := splitSign rest
      if digits.all CodePoint.isDigit then
        (natural? digits).map fun n => if negative then -(n : Int) else n
      else none
    else none

/-- The fraction after a point, and what follows it. -/
def splitFraction : Text → Text × Text
  | .char '.' :: rest => (rest.takeWhile CodePoint.isDigit, rest.dropWhile CodePoint.isDigit)
  | rest => ([], rest)

/-- The decimal that a text without sign consists of. -/
def decimal? (negative : Bool) (s : Text) : Option Decimal :=
  let whole := s.takeWhile CodePoint.isDigit
  let (fraction, rest) := splitFraction (s.dropWhile CodePoint.isDigit)
  if whole.isEmpty && fraction.isEmpty then none
  else (exponent? rest).map (Decimal.ofParts negative whole fraction)

/-- The numeral that a text consists of, in the core grammar. -/
def ofPlain? (s : Text) : Option Numeral :=
  let (negative, rest) := splitSign s
  let word := rest.map CodePoint.toLower
  if word == "inf" || word == "infinity" then some (.infinite negative)
  else if word == "nan" then some .undefined
  else (decimal? negative rest).map .finite

/-- A decimal digit of any script as an ASCII digit; other characters stay. -/
def asciiDigit (c : CodePoint) : CodePoint :=
  match digitValue? c with
  | some d => .ofCode (48 + d)
  | none => c

/-- A text without the underscores between its digits; `none` when an underscore stands anywhere
else. `previous` tells whether the character before is a digit. -/
def dropUnderscores (previous : Bool) : Text → Option Text
  | [] => some []
  | c :: rest =>
    if c == '_' then
      match rest with
      | [] => none
      | d :: _ => if previous && d.isDigit then dropUnderscores false rest else none
    else (dropUnderscores c.isDigit rest).map (c :: ·)

/-- White space around a numeral: the blanks without the information separators. -/
def isNumeralBlank (c : CodePoint) : Bool :=
  isBlank c && !(decide (28 ≤ c.code) && decide (c.code ≤ 31))

/-- A text without the white space around a numeral. -/
def trimNumeral (s : Text) : Text :=
  ((s.dropWhile isNumeralBlank).reverse.dropWhile isNumeralBlank).reverse

/-- The numeral that a written text consists of. -/
def ofText? (s : Text) : Option Numeral :=
  (dropUnderscores false ((trimNumeral s).map asciiDigit)).bind ofPlain?

/-- Whether two underscores stand next to each other. -/
def hasDoubledUnderscore : Text → Bool
  | .char '_' :: .char '_' :: _ => true
  | _ :: rest => hasDoubledUnderscore rest
  | [] => false

/-- The numeral that the text of a field consists of. -/
def ofField? (s : Text) : Option Numeral :=
  match ofPlain? (trimNumeral s) with
  | some n => some n
  | none =>
    let underscore := CodePoint.char '_'
    if s.head? == some underscore || s.getLast? == some underscore || hasDoubledUnderscore s then
      none
    else ofPlain? (s.filter (· != underscore))

end Numeral

end RoadRules
