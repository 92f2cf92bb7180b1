import RoadRules.Fault
import RoadRules.Number.Quantity

set_option autoImplicit false

/-! # Numbers in settings

A setting is a value of a configuration that is taken as a number when it is needed. Numbers and
truth values are numbers, and so are texts that write one. -/

namespace RoadRules.Quantity

variable {α : Type} [Quantity α]

/-- The number of a setting. A whole number must not be beyond all floating-point numbers. -/
def ofSetting : Json → Except Fault α
  | .scalar (.integer n) =>
    if isBeyondFloats n then .error .beyondFloats else .ok (ofNumeral (.ofInt n))
  | .scalar (.real n) => .ok (ofNumeral n)
  | .scalar (.bool b) => .ok (ofNat (if b then 1 else 0))
  | .scalar (.text s) =>
    match Numeral.ofText? s with
    | some n => .ok (ofNumeral n)
    | none => .error (.notANumber (Text.quoted s))
  | other => .error (.noNumber other.kind)

end RoadRules.Quantity
