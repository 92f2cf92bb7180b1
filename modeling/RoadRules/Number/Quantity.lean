import RoadRules.Json
import RoadRules.Number.Layout
import RoadRules.Problem

set_option autoImplicit false

/-! # Quantities

The numbers in which dimensions, speeds, lengths and costs are computed. The rules of the library
are written for any type of quantities: the program runs on floating-point numbers, and the rules
can be reasoned about on exact ones. What a rule needs is the four operations, comparison, the
number that a numeral stands for, two questions about infinity, and two ways to print a number. -/

namespace RoadRules

/-- A type of numbers for dimensions, speeds, lengths and costs. -/
class Quantity (α : Type) extends Add α, Sub α, Mul α, Div α, LT α, LE α where
  zero : α
  decideLt : DecidableLT α
  decideLe : DecidableLE α
  ofNumeral : Numeral → α
  isInfinite : α → Bool
  isBounded : α → Bool
  text : Nat → α → Text
  fixedText : Nat → α → Text

namespace Quantity

variable {α : Type} [Quantity α]

instance (a b : α) : Decidable (a < b) := decideLt a b

instance (a b : α) : Decidable (a ≤ b) := decideLe a b

def ofNat (n : Nat) : α := ofNumeral (.ofNat n)

/-- The lesser of two quantities; the first, unless the second is less. -/
def least (a b : α) : α := if b < a then b else a

/-- Whether a quantity is neither less nor greater than zero. -/
def isZero (a : α) : Bool := decide (a ≤ zero) && decide (zero ≤ a)

/-- Whether an integer is too large for the nearest floating-point number to be finite. -/
def isBeyondFloats (n : Int) : Bool := decide (powerOfTwo 1024 - powerOfTwo 970 ≤ n.natAbs)

/-- The quantity in a field of a document: a number, a truth value as one or zero, or a text that
writes a number. A whole number beyond all floating-point numbers is none. -/
def ofJson : Json → Checked α
  | .scalar (.integer n) =>
    if isBeyondFloats n then .fail .floatType else .good (ofNumeral (.ofInt n))
  | .scalar (.real n) => .good (ofNumeral n)
  | .scalar (.bool b) => .good (ofNumeral (.ofNat (if b then 1 else 0)))
  | .scalar (.text s) =>
    if s.hasSurrogate then .fail .stringUnicode
    else
      match Numeral.ofField? s with
      | some n => .good (ofNumeral n)
      | none => .fail .floatParsing
  | _ => .fail .floatType

end Quantity

instance : Quantity Float where
  zero := 0.0
  decideLt := fun a b => Float.decLt a b
  decideLe := fun a b => Float.decLe a b
  ofNumeral := Numeral.toFloat
  isInfinite := Float.isInf
  isBounded x := x.isFinite || (x.isInf && decide (x < 0.0))
  text := Layout.general
  fixedText := Layout.fixed

end RoadRules
