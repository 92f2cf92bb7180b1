import RoadRules.Number.Quantity
import RoadRules.Text.Lowercase
import RoadRules.Text.Replace

set_option autoImplicit false

/-! # Speeds in tags

A speed limit is written as a number, with or without a unit. The units of kilometres per hour are
taken out of the text wherever they stand; if miles per hour occur in what is left, they are taken
out too and the number is converted. What remains has to be a number greater than zero, or the
text states no speed. -/

namespace RoadRules.Speed

open Text

/-- The spellings of the unit kilometres per hour. -/
def kilometreUnits : List Text := ["km/h", "kmh", "kph"]

def mileUnit : Text := "mph"

/-- The number in a speed text, and whether it counts miles. -/
def parts? (s : Text) : Option (Numeral × Bool) :=
  let plain := trim (kilometreUnits.foldl (fun t unit => removeAll unit t) (trim (lower s)))
  if occursIn mileUnit plain then
    (Numeral.ofText? (trim (removeAll mileUnit plain))).map fun n => (n, true)
  else (Numeral.ofText? plain).map fun n => (n, false)

variable {α : Type} [Quantity α]

def kilometresPerMile : α := Quantity.ofNumeral (.ofPlaces 160934 5)

/-- The speed in kilometres per hour that a text states. -/
def ofText? (s : Text) : Option α :=
  (parts? s).bind fun (n, miles) =>
    let speed : α := Quantity.ofNumeral n
    let speed := if miles then speed * kilometresPerMile else speed
    if speed ≤ Quantity.zero then none else some speed

end RoadRules.Speed
