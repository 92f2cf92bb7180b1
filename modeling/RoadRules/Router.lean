import RoadRules.Network.Basic
import RoadRules.Survey.Index
import RoadRules.Travel.Route
import RoadRules.Vehicle.Choice

set_option autoImplicit false

/-! # Routers

A router answers questions about one road network at a time. It is made with a tag mapper and a
policy and starts with the empty network; a change replaces the network, together with the list of
tags that were refused on the way. Network and list are assigned one after the other, and what an
operation has assigned stays even if the operation fails afterwards (`RouterM`). -/

namespace RoadRules

/-- Where the restrictions of a new network come from. -/
inductive RestrictionSource (α : Type) where
  | tags
  | index (ix : RestrictionIndex α)
  | given (lists : OrderedMap Ident (List (Restriction α)))

namespace RestrictionSource

variable {α : Type} [Quantity α]

/-- The index that a source stands for; given lists have no refused tags. -/
def resolve (ways : List (Way α)) :
    RestrictionSource α → Except Fault (RestrictionIndex α)
  | tags => RestrictionIndex.ofWays ways standardKeys .unlimited
  | index ix => .ok ix
  | given lists => .ok ⟨lists, [], false⟩

end RestrictionSource

/-- A change of the network of a router. -/
inductive Change (α : Type) where
  | rebuild (ways : List (Way α)) (source : RestrictionSource α)
  | clear

/-- A road network that can be asked for routes. -/
structure Router (α : Type) where
  mapper : TagMapper
  policy : Policy α
  network : Network α
  issues : List Issue

namespace Router

variable {α : Type}

def ofMapper (mapper : TagMapper) (policy : Policy α) : Router α := ⟨mapper, policy, .empty, []⟩

def label (r : Router α) : String := "ConditionalRouter(graph=" ++ r.network.label ++ ")"

end Router

/-! ## Changes -/

/-- What is done with a router and may fail. The router that is left is known in both cases: a fault
does not take back what was assigned before. -/
abbrev RouterM (α : Type) : Type → Type := ExceptT Fault (StateM (Router α))

namespace RouterM

variable {α : Type}

/-- Builds the network of a list of ways and publishes it, and after it the tags that were
refused. -/
def rebuild [Geometry α] (ways : List (Way α)) (source : RestrictionSource α) :
    RouterM α Statistics := do
  let ix ← liftExcept (source.resolve ways)
  let r ← get
  let network ← liftExcept (Network.ofWays r.mapper r.policy.metric ix.restrictionsFor ways)
  modify fun r => { r with network := network }
  modify fun r => { r with issues := ix.issues }
  return network.statistics

def clear : RouterM α Unit := do
  modify fun r => { r with network := .empty }
  modify fun r => { r with issues := [] }

end RouterM

namespace Router

variable {α : Type}

/-- The router after a rebuild that succeeds. -/
def rebuild [Geometry α] (r : Router α) (ways : List (Way α)) (source : RestrictionSource α) :
    Except Fault (Router α) :=
  match (RouterM.rebuild ways source).run.run r with
  | (.ok _, r') => .ok r'
  | (.error f, _) => .error f

/-! ## Questions -/

variable [Quantity α]

/-- The cheapest route of a traveller between two nodes. -/
def route (r : Router α) (t : Traveller α) (budget : Budget) (start goal : Ident) : Route α :=
  r.network.route r.policy t budget start goal

/-- Whether a traveller can travel some edge of a way. -/
def isAccessible (r : Router α) (t : Traveller α) (way : Ident) : Bool :=
  r.network.isAccessible r.policy t way

/-- The cost of every edge for a chosen vehicle. A vehicle that cannot be resolved is a fault only
if there is an edge. -/
def costs (r : Router α) (choice : VehicleChoice α) (time : Calendar.LocalTime)
    (weight height : Option α) : Except Fault (List (Option α)) :=
  r.network.edges.mapM fun e =>
    choice.resolve.map fun p => e.costFor r.policy ⟨p, time, weight, height⟩

/-- The speed that is permitted on a way: the lowest of its own speed and the limits in force. A
vehicle, if one is chosen, is taken with the dimensions of its profile. There is no answer for a
way that the network does not have. -/
def maxSpeed (r : Router α) (way : Ident) (time : Calendar.LocalTime)
    (choice : Option (VehicleChoice α)) : Except Fault (Option α) :=
  match h : r.network.way? way with
  | none => .ok none
  | some w => do
    let profile ← choice.mapM VehicleChoice.resolve
    let attributes ← r.mapper.attributes w.scalarTags
    let active := Restriction.inForce (r.network.restrictionsOn h) time
      (profile.map Profile.weight) (profile.map Profile.height)
    return some ((active.filterMap fun x => x.effect.limit?).foldl Quantity.least
      attributes.maxSpeed)

/-- Whether a way may only be travelled in one direction. The first one-way rule in force goes
before the tag of the way. -/
def isOneway (r : Router α) (way : Ident) (time : Calendar.LocalTime) : Bool :=
  match h : r.network.way? way with
  | none => false
  | some w =>
    let active := Restriction.inForce (r.network.restrictionsOn h) time none none
    let direction := (active.findSome? fun x => x.effect.direction?).getD
      (TagMapper.direction w.scalarTags)
    direction != .both

end Router

end RoadRules
