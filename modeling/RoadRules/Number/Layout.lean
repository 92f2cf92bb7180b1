import RoadRules.Number.Binary64

set_option autoImplicit false

/-! # Printed numbers

Three ways to print a floating-point number, all from its exact binary value:

* `general p` has at most `p` significant digits, is rounded half to even, drops zeros at the
  end, and uses an exponent below `10⁻⁴` and from `10ᵖ` on;
* `fixed p` has exactly `p` places after the point;
* `shortest` has the fewest digits that read back as the same number, and uses an exponent below
  `10⁻⁴` and from `10¹⁶` on. -/

namespace RoadRules.Layout

open Text

/-- Digits `d` and exponent `k` of a number `d.ddd × 10ᵏ`, the digits as one natural number. -/
structure Scientific where
  /-- The significant digits, without the point. -/
  digits : Nat
  /-- The power of ten of the first digit. -/
  exponent : Int
deriving DecidableEq, Repr

/-- The power of ten of the first digit of a positive quotient. -/
def leadingPower (num den : Nat) : Int :=
  let guess : Int := ((Nat.toDigits 10 num).length : Int) - (Nat.toDigits 10 den).length
  let reached : Bool :=
    if 0 ≤ guess then decide (den * powerOfTen guess.toNat ≤ num)
    else decide (den ≤ num * powerOfTen guess.natAbs)
  if reached then guess else guess - 1

/-- A positive quotient times a power of ten, as a quotient. -/
def scale (num den : Nat) (power : Int) : Nat × Nat :=
  if 0 ≤ power then (num * powerOfTen power.toNat, den)
  else (num, den * powerOfTen power.natAbs)

/-- A positive quotient rounded to `p` significant digits. -/
def significant (p num den : Nat) : Scientific :=
  let k := leadingPower num den
  let (n, d) := scale num den ((p : Int) - 1 - k)
  let digits := roundHalfEven n d
  if digits = powerOfTen p then ⟨powerOfTen (p - 1), k + 1⟩ else ⟨digits, k⟩

/-- A list of digits without the zeros at its end. -/
def dropTrailingZeros (s : Text) : Text :=
  (s.reverse.dropWhile fun (c : CodePoint) => c == '0').reverse

/-- Digits after a point; nothing when there are none. -/
def afterPoint (s : Text) : Text := if s.isEmpty then [] else '.' :: s

/-- An exponent with its sign and at least two digits. -/
def exponentText (k : Int) : Text :=
  (if k < 0 then "e-" else "e+") ++ twoDigits k.natAbs

def withExponent (digits : Text) (k : Int) : Text :=
  digits.take 1 ++ afterPoint (dropTrailingZeros (digits.drop 1)) ++ exponentText k

/-- Significant digits with a point at its place: the whole digits and the fraction. -/
def positional (digits : Text) (k : Int) : Text × Text :=
  if k < 0 then ("0", dropTrailingZeros (List.replicate (k.natAbs - 1) (.char '0') ++ digits))
  else
    let width := k.toNat + 1
    (digits.take width ++ List.replicate (width - digits.length) (.char '0'),
      dropTrailingZeros (digits.drop width))

/-- The text of a number that is not finite, or of a finite one by its magnitude. -/
def signed (x : Float) (finite : Nat → Nat → Text) : Text :=
  if x.isNaN then "nan"
  else
    let b := Binary64.ofFloat x
    let body : Text := if x.isInf then "inf" else finite b.ratio.1 b.ratio.2
    if b.negative then '-' :: body else body

def general (p : Nat) (x : Float) : Text :=
  signed x fun num den =>
    if num = 0 then "0"
    else
      let s := significant p num den
      let digits := naturalText s.digits
      if s.exponent < -4 ∨ (p : Int) ≤ s.exponent then withExponent digits s.exponent
      else
        let (whole, fraction) := positional digits s.exponent
        whole ++ afterPoint fraction

def fixed (p : Nat) (x : Float) : Text :=
  signed x fun num den =>
    let digits := paddedDigits (p + 1) (roundHalfEven (num * powerOfTen p) den)
    let cut := digits.length - p
    digits.take cut ++ afterPoint (digits.drop cut)

/-- The candidates with `n` digits for the shortest text of a positive number: its neighbours on
the grid of `n`-digit decimals, the nearer one first. -/
def neighbours (n num den : Nat) : List Scientific :=
  let k := leadingPower num den
  let (a, b) := scale num den ((n : Int) - 1 - k)
  let below := a / b
  let make (d : Nat) : Scientific :=
    if d = powerOfTen n then ⟨powerOfTen (n - 1), k + 1⟩ else ⟨d, k⟩
  let near := roundHalfEven a b
  let far := if near = below then below + 1 else below
  [make near, make far]

/-- The shortest digits, from `n` digits on, that read back as the number `x`. -/
def shortestFrom (x : Float) (num den : Nat) : Nat → Nat → Scientific
  | _, 0 => significant 17 num den
  | n, fuel + 1 =>
    let reads (s : Scientific) : Bool :=
      let places : Int := s.exponent + 1 - (naturalText s.digits).length
      (Decimal.mk false s.digits places).toFloat == x
    match (neighbours n num den).find? reads with
    | some s => s
    | none => shortestFrom x num den (n + 1) fuel

/-- The fewest digits that read back. A whole number keeps one zero after the point. -/
def shortest (x : Float) : Text :=
  signed x fun num den =>
    if num = 0 then "0.0"
    else
      let s := shortestFrom x.abs num den 1 17
      let digits := naturalText s.digits
      if s.exponent < -4 ∨ 16 ≤ s.exponent then withExponent digits s.exponent
      else
        let (whole, fraction) := positional digits s.exponent
        whole ++ afterPoint (if fraction.isEmpty then "0" else fraction)

end RoadRules.Layout
