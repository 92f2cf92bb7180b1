import RoadRules.Json
import RoadRules.Problem

set_option autoImplicit false

/-! # Identifiers

Nodes and ways are identified by whole numbers or by texts; a number is never the same identifier
as the text of its digits. -/

namespace RoadRules

/-- The identifier of a node or a way. -/
inductive Ident where
  | number (n : Int)
  | name (s : Text)
deriving DecidableEq, Repr

namespace Ident

def text : Ident → Text
  | number n => (Scalar.integer n).plain
  | name s => s

/-- The order of identifiers: numbers ascending, then texts by code points. -/
def atMost : Ident → Ident → Bool
  | number a, number b => decide (a ≤ b)
  | number _, name _ => true
  | name _, number _ => false
  | name a, name b => Text.atMost a b

/-- The problems of an identifier, seen as a number and as a text. -/
def refuse (number text : Problem.Kind) : Checked Ident := .bad [⟨["int"], number⟩, ⟨["str"], text⟩]

/-- The identifier that a floating-point number is: a whole number of less than sixty-four bits. -/
def ofFloat (x : Float) : Checked Ident :=
  if !x.isFinite then refuse .finiteNumber .stringType
  else
    match (Binary64.ofFloat x).toInt? with
    | some n =>
      if n.natAbs < powerOfTwo 63 then .good (number n) else refuse .intSize .stringType
    | none => refuse .intFromFloat .stringType

/-- The identifier in a field of a document: a text, a whole number however it is written, or a
truth value as one or zero. -/
def ofJson : Json → Checked Ident
  | .scalar (.integer n) => .good (number n)
  | .scalar (.text s) => .good (name s)
  | .scalar (.bool b) => .good (number (if b then 1 else 0))
  | .scalar (.real n) => ofFloat n.toFloat
  | _ => refuse .intType .stringType

end Ident

end RoadRules
