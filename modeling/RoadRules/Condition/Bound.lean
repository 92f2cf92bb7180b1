import RoadRules.Fault
import RoadRules.Restriction.Comparison
import RoadRules.Text.Blank
import RoadRules.Text.Lowercase
import RoadRules.Text.WordChar

set_option autoImplicit false

/-! # Bounds in a condition

A condition may bound a dimension of the vehicle: the name of the dimension, an operator, a number
and possibly the unit of the dimension, as in `weight > 7.5 t`. The name may be in capital and
small letters, and the letter i may have any of its four shapes. In lower case the name is the
axis of the bound; a name with an unusual i makes an axis of its own, which has no unit. -/

namespace RoadRules.Condition

open Text

def weightAxis : Text := "weight"

def heightAxis : Text := "height"

def unit? (axis : Text) : Option Text :=
  if axis = weightAxis then some "t" else if axis = heightAxis then some "m" else none

/-- Whether a text spells a name, the case of letters not counting. -/
def spells (name s : Text) : Bool :=
  name.length == s.length && (name.zip s).all fun p => sameLetter p.1 p.2

/-- A condition that begins with the name of a dimension: the axis and the text after the name and
white space. The rest must be on one line. -/
def axis? (segment : Text) : Option (Text × Text) :=
  let name := segment.take 6
  let rest := segment.drop 6
  if (spells weightAxis name || spells heightAxis name) && wordEnds rest then
    let rest := trimStart rest
    if rest.contains '\n' then none else some (lower name, rest)
  else none

/-- Whether a character belongs to an operator. -/
def isOperatorChar (c : CodePoint) : Bool := c == '<' || c == '>' || c == '=' || c == '!'

/-- The number at the start of a text, as a decimal, and the rest: digits with or without a
fraction, or a fraction alone. -/
def leadingNumber? (s : Text) : Option (Decimal × Text) :=
  let whole := s.takeWhile isDecimalDigit
  let rest := s.dropWhile isDecimalDigit
  match rest with
  | .char '.' :: after =>
    let fraction := after.takeWhile isDecimalDigit
    if fraction.isEmpty then
      if whole.isEmpty then none else some (.ofParts false whole [] 0, rest)
    else some (.ofParts false whole fraction 0, after.dropWhile isDecimalDigit)
  | _ => if whole.isEmpty then none else some (.ofParts false whole [] 0, rest)

/-- The number and the unit that a text consists of. -/
def numberAndUnit? (s : Text) : Option (Decimal × Text) := do
  let (d, rest) ← leadingNumber? s
  let unit := trimStart rest
  if unit.all CodePoint.isAlpha then some (d, unit) else none

variable {α : Type} [Quantity α]

/-- The bound that a condition beginning with the name of a dimension states. -/
def boundAfter (key segment axis rest : Text) : Except Fault (Comparison α) :=
  let symbol := rest.takeWhile isOperatorChar
  if symbol.isEmpty then .error (.refused key (.noOperator segment))
  else
    match Operator.ofSymbol? symbol with
    | none => .error (.refused key (.unsupportedOperator symbol))
    | some operator =>
      let text := trim (rest.dropWhile isOperatorChar)
      match numberAndUnit? text with
      | none => .error (.refused key (.invalidNumber (if text.isEmpty then segment else text)))
      | some (d, unit) =>
        let comparison : Comparison α := ⟨operator, Quantity.ofNumeral (.finite d)⟩
        if unit.isEmpty then .ok comparison
        else
          match unit? axis with
          | none => .error (.unknownAxis axis)
          | some expected =>
            if unit.map CodePoint.toLower = expected then .ok comparison
            else .error (.refused key (.unexpectedUnit axis text))

/-- The bound that a condition states, with its axis; nothing if the condition does not begin
with the name of a dimension. -/
def bound? (key segment : Text) : Except Fault (Option (Text × Comparison α)) :=
  match axis? segment with
  | none => .ok none
  | some (axis, rest) => (boundAfter key segment axis rest).map fun c => some (axis, c)

theorem bound?_of_axis?_eq_none {key segment : Text} (h : axis? segment = none) :
    (bound? key segment : Except Fault (Option (Text × Comparison α))) = .ok none := by
  rw [bound?, h]

theorem bound?_of_axis?_eq_some {key segment axis rest : Text}
    (h : axis? segment = some (axis, rest)) :
    (bound? key segment : Except Fault (Option (Text × Comparison α))) =
      (boundAfter key segment axis rest).map fun c => some (axis, c) := by
  rw [bound?, h]

end RoadRules.Condition
