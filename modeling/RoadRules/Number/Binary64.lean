import RoadRules.Number.Numeral
import RoadRules.Number.Power
import RoadRules.Number.Rounding

set_option autoImplicit false

/-! # Numbers in binary floating point

The binary form of a 64-bit floating-point number, the number nearest to a numeral, and the exact
length of a hypotenuse. Decimals far outside the range go to infinity or zero before any power of
ten is formed, so the work is bounded by the length of the text. -/

namespace RoadRules

/-- A finite floating-point number: sign, whole significand and power of two. -/
structure Binary64 where
  negative : Bool
  significand : Nat
  /-- The power of two that the significand is multiplied by. -/
  exponent : Int
deriving DecidableEq, Repr

namespace Binary64

/-- The binary form of a finite number, read off its bits. -/
def ofFloat (x : Float) : Binary64 :=
  let bits := x.toBits.toNat
  let field : Nat := bits / powerOfTwo 52 % powerOfTwo 11
  let fraction : Nat := bits % powerOfTwo 52
  let negative := decide (bits / powerOfTwo 63 = 1)
  if field = 0 then ⟨negative, fraction, -1074⟩
  else ⟨negative, fraction + powerOfTwo 52, (field : Int) - 1075⟩

/-- The magnitude as an exact quotient of natural numbers. -/
def ratio (b : Binary64) : Nat × Nat :=
  if 0 ≤ b.exponent then (b.significand * powerOfTwo b.exponent.toNat, 1)
  else (b.significand, powerOfTwo b.exponent.natAbs)

/-- The integer that a finite number is, when it is one. -/
def toInt? (b : Binary64) : Option Int :=
  let (num, den) := b.ratio
  if num % den = 0 then
    some (if b.negative then -((num / den : Nat) : Int) else ((num / den : Nat) : Int))
  else none

end Binary64

def Decimal.toFloat (d : Decimal) : Float :=
  let size : Int := (Nat.toDigits 10 d.digits).length + d.exponent
  let magnitude : Float :=
    if d.digits = 0 then 0.0
    else if 400 < size then 1.0 / 0.0
    else if size < -400 then 0.0
    else Float.ofScientific d.digits (decide (d.exponent < 0)) d.exponent.natAbs
  if d.negative then -magnitude else magnitude

def Numeral.toFloat : Numeral → Float
  | .finite d => d.toFloat
  | .infinite negative => if negative then -(1.0 / 0.0) else 1.0 / 0.0
  | .undefined => 0.0 / 0.0

/-- A whole number times a power of two, rounded to the nearest number. Whatever the leading
sixty-two bits leave out is recorded in one last bit, so that the rounding sees on which side of a
half the number lies. -/
def Binary64.round (n : Nat) (exponent : Int) : Float :=
  let cut := n.log2 - 61
  let sticky := if n % powerOfTwo cut = 0 then 0 else 1
  (Float.ofNat (2 * (n / powerOfTwo cut) + sticky)).scaleB (exponent + cut - 1)

/-- The length of the hypotenuse over two sides, correctly rounded. The squares are added exactly;
the root is taken with sixty-four more bits and a last bit that records whether anything was cut
off. -/
def hypotenuse (x y : Float) : Float :=
  if x.isInf || y.isInf then 1.0 / 0.0
  else if x.isNaN || y.isNaN then 0.0 / 0.0
  else
    let a := Binary64.ofFloat x
    let b := Binary64.ofFloat y
    let low := min a.exponent b.exponent
    let side (c : Binary64) : Nat := c.significand * powerOfTwo (c.exponent - low).toNat
    let square := side a * side a + side b * side b
    if square = 0 then 0.0
    else
      let scaled := square * powerOfTwo 128
      let root := wholeRoot scaled
      let sticky := if root * root = scaled then 0 else 1
      Binary64.round (2 * root + sticky) (low - 65)

end RoadRules
