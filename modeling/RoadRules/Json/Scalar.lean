import RoadRules.Number.Layout
import RoadRules.Text.Quoted

set_option autoImplicit false

/-! # Scalars

Values without parts. Whole numbers and other numbers are different scalars, and both are kept
exactly as they were written.

A scalar has two texts: the plain one, and the one shown in messages, where a text stands in
quotes. Two scalars have the same value if they are the same text, or numbers of one value, where
a truth value counts as one or zero and the undefined number is as good as itself. -/

namespace RoadRules

open Text

/-- A value without parts. -/
inductive Scalar where
  /-- No value. -/
  | null
  | bool (value : Bool)
  | integer (value : Int)
  | real (value : Numeral)
  | text (value : Text)
deriving DecidableEq, Repr

namespace Scalar

def plain : Scalar → Text
  | null => "None"
  | bool true => "True"
  | bool false => "False"
  | integer n => (if n < 0 then "-" else "") ++ naturalText n.natAbs
  | real n => Layout.shortest n.toFloat
  | text s => s

def shown : Scalar → Text
  | text s => quoted s
  | other => other.plain

/-- Whether a scalar counts as something: neither nothing, nor false, nor zero, nor empty. -/
def isSomething : Scalar → Bool
  | null => false
  | bool b => b
  | integer n => n != 0
  | real (.finite d) => d.toFloat != 0.0
  | real _ => true
  | text s => !s.isEmpty

/-! ## Values -/

def numeral? : Scalar → Option Numeral
  | bool b => some (.ofNat (if b then 1 else 0))
  | integer n => some (.ofInt n)
  | real n => some n
  | null | text _ => none

/-- The exact value of a finite number as a quotient. -/
def quotient? : Scalar → Option (Int × Nat)
  | bool b => some (if b then 1 else 0, 1)
  | integer n => some (n, 1)
  | real n =>
    let x := n.toFloat
    let (num, den) := (Binary64.ofFloat x).ratio
    if x.isFinite then some (if x < 0.0 then -(num : Int) else num, den) else none
  | null | text _ => none

/-- Whether two numbers that are not both finite are the same: two infinities of one sign, or two
undefined numbers. -/
def sameLimit (x y : Float) : Bool := !x.isFinite && (x == y || (x.isNaN && y.isNaN))

def sameValue (a b : Scalar) : Bool :=
  match a.quotient?, b.quotient? with
  | some (m, c), some (n, d) => m * d == n * c
  | _, _ =>
    match a.numeral?, b.numeral? with
    | some x, some y =>
      a.quotient?.isNone && b.quotient?.isNone && sameLimit x.toFloat y.toFloat
    | _, _ => decide (a = b)

/-- Where a scalar stands among others of all kinds: nothing, numbers, texts. -/
def rank : Scalar → Nat
  | null => 0
  | bool _ | integer _ | real _ => 1
  | text _ => 2

/-- The order of scalars: numbers by value, with the infinities at the ends, and texts by code
points. -/
def atMost (a b : Scalar) : Bool :=
  match a.quotient?, b.quotient? with
  | some (m, c), some (n, d) => decide (m * d ≤ n * c)
  | _, _ =>
    match a.numeral?, b.numeral? with
    | some x, some y =>
      (a.quotient?.isNone && decide (x.toFloat < 0.0)) ||
        (b.quotient?.isNone && decide (0.0 < y.toFloat))
    | _, _ => if a.rank = b.rank then Text.atMost a.plain b.plain else decide (a.rank < b.rank)

end Scalar

end RoadRules
