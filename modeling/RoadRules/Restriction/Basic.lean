import RoadRules.Restriction.Comparison
import RoadRules.Text.Quoted
import RoadRules.Way.Direction
import RoadRules.Way.Speed
import RoadRules.Window.Basic

set_option autoImplicit false

/-! # Restrictions

A restriction is what one conditional tag says: a value that holds for the tag's subject while one
of several windows is active, and for vehicles whose weight and height pass the comparisons.
Without windows it always holds, and a dimension that is not known never exempts a vehicle.

What a restriction does to routing is its effect: it may deny access, limit the speed, set the
direction of travel, or be of another kind. -/

namespace RoadRules

open Calendar

def conditionalEnding : Text := ":conditional"

/-- Whether a key is the key of a conditional tag. -/
def isConditionalKey (key : Text) : Bool := conditionalEnding.isSuffixOf key

/-- The key of the tag that a conditional tag qualifies; other keys stay. -/
def baseKey (key : Text) : Text :=
  if isConditionalKey key then key.take (key.length - conditionalEnding.length) else key

def normalized (s : Text) : Text := Text.lower (Text.trim s)

/-- The subjects whose value grants or denies passage to a class of vehicles. -/
def accessSubjects : List Text :=
  ["access", "vehicle", "motor_vehicle", "motorcar", "motorcycle", "hgv", "goods", "bus", "psv",
    "bicycle", "foot"]

/-- The access values that deny passage unless a policy says otherwise. -/
def denyingValues : List Text := ["no", "private"]

/-- What a restriction does to routing. -/
inductive Effect (α : Type) where
  | access (subject value : Text)
  /-- The speed is limited, if the value states a speed. -/
  | speed (limit : Option α)
  | oneway (direction : Direction)
  | other (subject value : Text)
deriving DecidableEq

namespace Effect

variable {α : Type}

def kind : Effect α → String
  | access _ _ => "access"
  | speed _ => "speed"
  | oneway _ => "oneway"
  | other _ _ => "other"

/-- Whether an access value denies passage by default. -/
def denies (value : Text) : Bool := denyingValues.contains value

end Effect

/-- What one conditional tag says. -/
structure Restriction (α : Type) where
  key : Text
  /-- The value that holds while the restriction is in force. -/
  value : Text
  /-- The alternative windows; none means always. -/
  windows : List TimeWindow
  /-- The comparison of the vehicle's weight in tonnes. -/
  weight : Option (Comparison α)
  /-- The comparison of the vehicle's height in metres. -/
  height : Option (Comparison α)
  raw : Text
deriving DecidableEq

namespace Restriction

variable {α : Type}

/-- The key of the tag that the restriction qualifies. -/
def subject (r : Restriction α) : Text := baseKey r.key

/-- Whether a restriction is in force at a point of time. -/
def isActiveAt (r : Restriction α) (t : LocalTime) : Bool :=
  r.windows.isEmpty || r.windows.any (·.isActiveAt t)

variable [Quantity α]

/-- Whether a comparison, if there is one, passes a dimension, if it is known. -/
def admits (c : Option (Comparison α)) (measured : Option α) : Bool :=
  match c, measured with
  | some c, some m => c.holds m
  | _, _ => true

/-- Whether a restriction concerns a vehicle of the given dimensions. -/
def appliesTo (r : Restriction α) (weight height : Option α) : Bool :=
  admits r.weight weight && admits r.height height

/-- What a restriction does to routing, by its subject. -/
def effect (r : Restriction α) : Effect α :=
  let subject := Text.lower r.subject
  let value := normalized r.value
  if accessSubjects.contains subject then .access subject value
  else if subject == "maxspeed" then .speed (Speed.ofText? value)
  else if subject == "oneway" then .oneway (.ofText value)
  else .other subject value

/-- The conditions of a restriction as texts: windows, weight, height. -/
def conditions (r : Restriction α) : List Text :=
  let bound (name unit : Text) (c : Comparison α) : Text := name ++ " " ++ c.describe unit
  r.windows.map (·.describe) ++ (r.weight.map (bound "weight" "t")).toList ++
    (r.height.map (bound "height" "m")).toList

/-- A restriction as text: subject, value and conditions. -/
def describe (r : Restriction α) : Text :=
  r.subject ++ " = " ++ r.value ++
    (if r.conditions.isEmpty then [] else " when: " ++ Text.joined ", " r.conditions : Text)

/-- A restriction as text with its kind: key, quoted value, number of windows, comparisons. -/
def label (r : Restriction α) : Text :=
  let bound (c : Option (Comparison α)) : Text := (c.map (·.describe "")).getD "None"
  "Restriction(" ++ r.key ++ "=" ++ Text.quoted r.value ++ ", windows=" ++
    toString r.windows.length ++ ", weight=" ++ bound r.weight ++ ", height=" ++ bound r.height ++
    ")"

/-- The restrictions of a list that are in force at a point of time for a vehicle of the given
dimensions. -/
def inForce (rs : List (Restriction α)) (t : LocalTime) (weight height : Option α) :
    List (Restriction α) :=
  rs.filter fun r => r.isActiveAt t && r.appliesTo weight height

end Restriction

end RoadRules
