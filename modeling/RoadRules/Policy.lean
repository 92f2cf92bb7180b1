import RoadRules.Json.Field
import RoadRules.Restriction.Basic
import RoadRules.Vehicle.Profile

set_option autoImplicit false

/-! # Routing policies

The choices that routing leaves to its user: by which factor restrictions that are not modelled
make a way less attractive, which access values deny passage, how distances are measured, and
which classes of vehicles do not heed conditional one-way rules. -/

namespace RoadRules

/-- How the distance between two nodes is measured. -/
inductive Metric where
  | haversine
  | euclidean
deriving DecidableEq, Repr

namespace Metric

def name : Metric → String
  | haversine => "haversine"
  | euclidean => "euclidean"

def ofName? (s : Text) : Option Metric :=
  if s == "haversine" then some haversine else if s == "euclidean" then some euclidean else none

/-- The metric of a name; a name that is none means great circles. -/
def named (s : Text) : Metric := (ofName? s).getD haversine

end Metric

/-- The choices that routing leaves to its user. -/
structure Policy (α : Type) where
  penalty : α
  /-- The access values that deny passage, in lower case. -/
  blockingValues : List Text
  metric : Metric
  onewayExempt : List VehicleClass
deriving DecidableEq

namespace Policy

variable {α : Type} [Quantity α]

/-- The policy that is used when none is given. -/
def standard : Policy α where
  penalty := Quantity.ofNumeral (.ofPlaces 15 1)
  blockingValues := denyingValues
  metric := .haversine
  onewayExempt := [.pedestrian]

/-- A policy from the members of an object. The penalty has to be greater than zero, and the
blocking values are taken trimmed and in lower case. -/
def ofMembers (members : List (Text × Json)) : Checked (Policy α) :=
  let penalty (j : Json) : Checked α :=
    (Quantity.ofJson j).require .greaterThan fun v => decide (Quantity.zero < v)
  let blocking (j : Json) : Checked (List Text) :=
    (Json.setField Json.textField j).map fun values => values.map normalized
  ((Json.optional members "other_penalty_factor" standard.penalty penalty).both
    ((Json.optional members "blocking_values" denyingValues blocking).both
      ((Json.optional members "distance_metric" .haversine
          (Json.nameField .literal Metric.ofName?)).both
        (Json.optional members "oneway_exempt_profiles" [.pedestrian]
          (Json.setField (Json.nameField .enum VehicleClass.ofName?)))))).map fun p =>
    ⟨p.1, p.2.1, p.2.2.1, p.2.2.2⟩

def ofJson : Json → Except Fault (Policy α)
  | .object members =>
    match ofMembers members with
    | .good p => .ok p
    | .bad problems => .error (.invalid problems)
  | _ => .error (.invalid [⟨[], .modelType⟩])

def ofText (text : Text) : Except Fault (Policy α) := do
  ofJson (← (Json.readFile text).mapError Fault.ofFailure)

end Policy

end RoadRules
