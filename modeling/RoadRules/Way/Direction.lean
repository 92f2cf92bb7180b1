import RoadRules.Text.Blank
import RoadRules.Text.Lowercase

set_option autoImplicit false

/-! # Directions of travel

The direction in which a way may be travelled, relative to the order of its nodes, and the words
with which tags state it. -/

namespace RoadRules

/-- A permitted direction of travel, relative to the order of the nodes of a way. -/
inductive Direction where
  | both
  /-- Only along the nodes. -/
  | forward
  /-- Only against the nodes. -/
  | reverse
deriving DecidableEq, Repr

namespace Direction

def name : Direction → String
  | both => "both"
  | forward => "forward"
  | reverse => "reverse"

/-- The direction that a tag value states; a value that states none means both. -/
def ofText (s : Text) : Direction :=
  let word := Text.lower (Text.trim s)
  if word == "yes" || word == "true" || word == "1" then forward
  else if word == "-1" || word == "reverse" then reverse
  else both

/-- Whether travel along the nodes is permitted. -/
def allowsForward (d : Direction) : Bool := d != reverse

/-- Whether travel against the nodes is permitted. -/
def allowsBackward (d : Direction) : Bool := d != forward

/-- Whether a direction forbids travel along (`true`) or against (`false`) the nodes. -/
def forbids (d : Direction) (forward : Bool) : Bool :=
  if forward then !d.allowsForward else !d.allowsBackward

end Direction

end RoadRules
