import RoadRules.Fault
import RoadRules.Json
import RoadRules.Number.Quantity
import RoadRules.Text.Blank
import RoadRules.Text.Lowercase

set_option autoImplicit false

/-! # Vehicle profiles

The classes of vehicles, and what routing assumes about a vehicle of a class: the access tag that
addresses it, its dimensions and speed when a query gives none, and whether it has a motor. A
profile is found by the name of its class or by one of several other names. -/

namespace RoadRules

/-- A class of vehicles. -/
inductive VehicleClass where
  | pedestrian | bicycle | car | motorcycle | bus | hgv | delivery
deriving DecidableEq, Repr

namespace VehicleClass

def all : List VehicleClass := [pedestrian, bicycle, car, motorcycle, bus, hgv, delivery]

def name : VehicleClass → String
  | pedestrian => "pedestrian"
  | bicycle => "bicycle"
  | car => "car"
  | motorcycle => "motorcycle"
  | bus => "bus"
  | hgv => "hgv"
  | delivery => "delivery"

def ofName? (s : Text) : Option VehicleClass := all.find? fun c => Text.ofString c.name == s

theorem ofName?_name (c : VehicleClass) : ofName? c.name = some c := by
  cases c <;> decide

/-- Other names of the classes, in the order of the alphabet. -/
def aliases : List (String × VehicleClass) :=
  [("bike", bicycle), ("cycle", bicycle), ("foot", pedestrian), ("goods", delivery),
    ("lorry", hgv), ("motor_vehicle", car), ("motorcar", car), ("truck", hgv), ("van", delivery),
    ("walk", pedestrian), ("walking", pedestrian)]

def ofAnyName? (s : Text) : Option VehicleClass :=
  match ofName? s with
  | some c => some c
  | none => (aliases.find? fun a => Text.ofString a.1 == s).map Prod.snd

/-- All names by which a class is found: their own first. -/
def identifiers : List String := all.map name ++ aliases.map Prod.fst

def ofJson (j : Json) : Except Fault VehicleClass :=
  match j with
  | .scalar (.text s) =>
    match ofName? s with
    | some c => .ok c
    | none => .error (.notAMember j.shown "VehicleType")
  | _ => .error (.notAMember j.shown "VehicleType")

end VehicleClass

/-- What routing assumes about a vehicle. -/
structure Profile (α : Type) where
  vehicleClass : VehicleClass
  accessTag : Text
  /-- The weight in tonnes when none is given. -/
  weight : α
  /-- The height in metres when none is given. -/
  height : α
  /-- The typical speed in kilometres per hour. -/
  speed : α
  motorized : Bool
deriving DecidableEq

namespace Profile

variable {α : Type} [Quantity α]

/-- A profile with weight and height in tenths. -/
def inTenths (c : VehicleClass) (accessTag : Text) (weight height speed : Nat)
    (motorized : Bool) : Profile α where
  vehicleClass := c
  accessTag := accessTag
  weight := Quantity.ofNumeral (.ofPlaces weight 1)
  height := Quantity.ofNumeral (.ofPlaces height 1)
  speed := Quantity.ofNat speed
  motorized := motorized

def ofClass (c : VehicleClass) : Profile α :=
  match c with
  | .pedestrian => inTenths c "foot" 0 0 5 false
  | .bicycle => inTenths c "bicycle" 0 0 15 false
  | .car => inTenths c "motor_vehicle" 20 18 50 true
  | .motorcycle => inTenths c "motorcycle" 3 15 50 true
  | .bus => inTenths c "bus" 120 32 50 true
  | .hgv => inTenths c "hgv" 400 40 80 true
  | .delivery => inTenths c "goods" 75 25 50 true

/-- The profile of a name, whatever its case and the white space around it. -/
def named (identifier : Text) : Except Fault (Profile α) :=
  match VehicleClass.ofAnyName? (Text.lower (Text.trim identifier)) with
  | some c => .ok (ofClass c)
  | none => .error (.unknownProfile identifier VehicleClass.identifiers)

/-- Whether an access tag addresses a vehicle: its own tag, the tags for all vehicles, the tag for
all motor vehicles if it has a motor, and one more tag each for cars and buses. -/
def isAddressedBy (p : Profile α) (subject : Text) : Bool :=
  subject == p.accessTag || subject == "access" || subject == "vehicle" ||
    (subject == "motor_vehicle" && p.motorized) ||
    (subject == "motorcar" && p.vehicleClass == .car) ||
    (subject == "psv" && p.vehicleClass == .bus)

end Profile

end RoadRules
