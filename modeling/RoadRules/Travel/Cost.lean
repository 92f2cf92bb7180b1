import RoadRules.Network.Edge
import RoadRules.Policy

set_option autoImplicit false

/-! # The cost of an edge

What it costs a traveller to travel an edge. Of the restrictions of the edge only those count that
are in force at the time of the travel for the dimensions of the vehicle. One that forbids the
travel makes the edge impassable, whatever the others say. Otherwise the cost of the edge is
multiplied by the penalty of the policy for every restriction of an unmodelled kind, and, if the
lowest speed limit is below the typical speed of the vehicle, by the quotient of the two. -/

namespace RoadRules

open Calendar

/-- A vehicle that travels at some time, with the dimensions that are known to differ from those
of its profile. -/
structure Traveller (α : Type) where
  profile : Profile α
  time : LocalTime
  /-- The weight in tonnes, if it is not that of the profile. -/
  ownWeight : Option α
  /-- The height in metres, if it is not that of the profile. -/
  ownHeight : Option α

namespace Traveller

variable {α : Type}

def weight (t : Traveller α) : α := t.ownWeight.getD t.profile.weight

def height (t : Traveller α) : α := t.ownHeight.getD t.profile.height

/-- The restrictions of a list that are in force for a traveller. -/
def restrictionsInForce [Quantity α] (t : Traveller α) (rs : List (Restriction α)) :
    List (Restriction α) :=
  Restriction.inForce rs t.time (some t.weight) (some t.height)

end Traveller

namespace Effect

variable {α : Type} [Quantity α]

/-- Whether an effect forbids a vehicle to travel along (`true`) or against (`false`) the nodes of
a way. -/
def forbids (policy : Policy α) (p : Profile α) (forward : Bool) : Effect α → Bool
  | access subject value => policy.blockingValues.contains value && p.isAddressedBy subject
  | oneway direction =>
    !policy.onewayExempt.contains p.vehicleClass && direction.forbids forward
  | speed _ | other _ _ => false

def limit? : Effect α → Option α
  | speed limit => limit
  | access _ _ | oneway _ | other _ _ => none

/-- The direction of travel that an effect sets. -/
def direction? : Effect α → Option Direction
  | oneway direction => some direction
  | access _ _ | speed _ | other _ _ => none

/-- Whether an effect of an unmodelled kind makes a way less attractive. -/
def deters : Effect α → Bool
  | other _ value => value == "no"
  | access _ _ | speed _ | oneway _ => false

end Effect

/-- What the travel along an edge comes to while its restrictions are looked at one by one. -/
structure Fare (α : Type) where
  cost : α
  /-- The lowest speed limit so far. -/
  ceiling : Option α

namespace Fare

variable {α : Type} [Quantity α]

/-- The fare with one more speed limit; a limit that could not be read is none. -/
def lower (f : Fare α) : Option α → Fare α
  | none => f
  | some limit =>
    match f.ceiling with
    | none => { f with ceiling := some limit }
    | some ceiling => { f with ceiling := some (Quantity.least ceiling limit) }

/-- The fare after one more effect; there is none if the effect forbids the travel. -/
def add (policy : Policy α) (p : Profile α) (forward : Bool) (f : Fare α) (e : Effect α) :
    Option (Fare α) :=
  match e with
  | .access _ _ | .oneway _ => if e.forbids policy p forward then none else some f
  | .speed limit => some (f.lower limit)
  | .other _ _ => some (if e.deters then { f with cost := f.cost * policy.penalty } else f)

end Fare

namespace Edge

variable {α : Type} [Quantity α]

/-- A cost multiplied by how much slower than usual a vehicle has to be. -/
def slowed (p : Profile α) (cost : α) (limit : Option α) : α :=
  match limit with
  | some l => if l < p.speed then cost * (p.speed / l) else cost
  | none => cost

/-- What it costs to travel an edge whose restrictions in force have the given effects; nothing if
it is impassable. The first effect that forbids the travel ends the account. -/
def costUnder (policy : Policy α) (p : Profile α) (e : Edge α) (es : List (Effect α)) :
    Option α :=
  (es.foldlM (Fare.add policy p e.forward) ⟨e.cost, none⟩).map fun f => slowed p f.cost f.ceiling

/-- What it costs a traveller to travel an edge; nothing if it is impassable. -/
def costFor (policy : Policy α) (t : Traveller α) (e : Edge α) : Option α :=
  e.costUnder policy t.profile ((t.restrictionsInForce e.restrictions).map Restriction.effect)

/-- What it costs a traveller to travel an edge, if that is not an infinite quantity. -/
def stepFor (policy : Policy α) (t : Traveller α) (e : Edge α) : Option α :=
  (e.costFor policy t).filter fun c => !Quantity.isInfinite c

end Edge

end RoadRules
