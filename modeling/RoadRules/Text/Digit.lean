import RoadRules.Text.CharClass

set_option autoImplicit false

/-! # Digits

A decimal digit is a character of general category Nd. These come in runs of ten, each run
counting from zero to nine, so a digit's value is its distance from the start of its run. A wider
class also holds the digit-like characters (superscripts, circled digits and so on), which have a
value in writing but do not form numerals. -/

namespace RoadRules.Text

/-- The code points of the zeros, one for each run of ten decimal digits. -/
def zeros : List Nat :=
  [48, 1632, 1776, 1984, 2406, 2534, 2662, 2790, 2918, 3046, 3174, 3302, 3430, 3558, 3664, 3792,
   3872, 4160, 4240, 6112, 6160, 6470, 6608, 6784, 6800, 6992, 7088, 7232, 7248, 42528, 43216,
   43264, 43472, 43504, 43600, 44016, 65296, 66720, 68912, 69734, 69872, 69942, 70096, 70384,
   70736, 70864, 71248, 71360, 71472, 71904, 72016, 72784, 73040, 73120, 92768, 92864, 93008,
   120782, 120792, 120802, 120812, 120822, 123200, 123632, 125264, 130032]

/-- The value of a decimal digit, from zero to nine. -/
def digitValue? (c : CodePoint) : Option Nat :=
  if c.code < 128 then
    if c.isDigit then some (c.code - 48) else none
  else
    (zeros.find? fun z => decide (z ≤ c.code) && decide (c.code < z + 10)).map (c.code - ·)

def isDecimalDigit (c : CodePoint) : Bool := (digitValue? c).isSome

/-- The characters that stand for a digit without forming numerals. -/
def digitLookalikes : CharClass := ⟨
  [(178, 179), (185, 185), (4969, 4977), (6618, 6618), (8304, 8304), (8308, 8313), (8320, 8329),
   (9312, 9320), (9332, 9340), (9352, 9360), (9450, 9450), (9461, 9469), (9471, 9471),
   (10102, 10110), (10112, 10120), (10122, 10130), (68160, 68163), (69216, 69224),
   (69714, 69722), (127232, 127242)]⟩

/-- Whether a character stands for a digit, in a numeral or not. -/
def isDigitLike (c : CodePoint) : Bool := isDecimalDigit c || digitLookalikes.contains c

/-- The number that a list of digit values writes, most significant first. -/
def digitsValue (digits : List Nat) : Nat := digits.foldl (fun n d => 10 * n + d) 0

/-- The number that a text of decimal digits writes; `none` when some character is no digit or
the text is empty. -/
def natural? (s : Text) : Option Nat :=
  if s.isEmpty then none else (s.mapM digitValue?).map digitsValue

/-- The number of digits that a text may have to be taken as a whole number. Larger numbers would
take too much work. -/
def longestNatural : Nat := 4300

def naturalText (n : Nat) : Text := (Nat.toDigits 10 n).map .char

/-- A number in at least two ASCII decimal digits. -/
def twoDigits (n : Nat) : Text :=
  if n < 10 then '0' :: naturalText n else naturalText n

/-- A number in ASCII decimal digits, with zeros in front up to a width. -/
def paddedDigits (width n : Nat) : Text :=
  List.replicate (width - (naturalText n).length) (.char '0') ++ naturalText n

theorem isDecimalDigit_of_isDigit {c : CodePoint} (h : c.isDigit = true) :
    isDecimalDigit c = true := by
  have hlt : c.code < 128 := by
    cases c with
    | char c =>
      simp only [CodePoint.isDigit, Char.isDigit, Bool.and_eq_true, decide_eq_true_eq] at h
      have h57 : c.toNat ≤ 57 := h.2
      simp only [CodePoint.code]
      omega
    | surrogate place => cases h
  simp [isDecimalDigit, digitValue?, hlt, h]

end RoadRules.Text
