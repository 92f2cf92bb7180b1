import RoadRules.Number.Setting
import RoadRules.OrderedMap
import RoadRules.Way.Direction
import RoadRules.Way.Speed

set_option autoImplicit false

/-! # From tags to the attributes of a way

A tag mapper says which categories of roads can be travelled, by which factor the length of a way
of a category is divided to give its cost, and which speed it has when none is tagged. A
configuration is kept as it was written and is read only when a way of a category comes: a part of
it that cannot be read is a fault of that way and of no other. -/

namespace RoadRules

/-- What a configuration says about a category of roads. -/
structure CategoryRule where
  /-- The factor that lengths are divided by, as configured. -/
  speedFactor : Option Json
  /-- The speed in kilometres per hour, as configured. -/
  maxSpeed : Option Json

/-- Which roads can be travelled, and how fast. -/
structure TagMapper where
  config : Json
  excluded : List Scalar

/-- The attributes of a way that matter for routing. -/
structure WayAttributes (α : Type) where
  category : Option Scalar
  routable : Bool
  /-- The factor that lengths are divided by. -/
  speedFactor : α
  maxSpeed : α
  direction : Direction
  tags : OrderedMap Text Scalar

namespace TagMapper

/-! ## Configurations -/

/-- The members of a part of a configuration, which has to be an object. -/
def membersOf : Json → Except Fault (List (Text × Json))
  | .object members => .ok members
  | other => .error (.noMembers other.kind)

/-- A named part of a configuration; a part that is missing is empty. -/
def part (members : List (Text × Json)) (name : Text) : Json :=
  (Json.get? members name).getD (.object [])

/-- A rule that gives a factor in tenths and a speed. -/
def standardRule (tenths speed : Nat) : Json :=
  .object [("speed_factor", .scalar (.real (.ofPlaces tenths 1))),
    ("max_speed_kmh", .scalar (.integer speed))]

/-- The configuration that holds when none is given. -/
def standardConfig : Json :=
  .object [("highway", .object [("motorway", standardRule 40 120), ("trunk", standardRule 35 100),
    ("primary", standardRule 30 80), ("secondary", standardRule 25 60),
    ("tertiary", standardRule 20 50), ("residential", standardRule 15 30),
    ("service", standardRule 12 20), ("footway", standardRule 8 5), ("path", standardRule 8 5)])]

/-- The categories that cannot be travelled when none are configured. -/
def standardExcluded : List Scalar :=
  [.text "proposed", .text "construction", .text "abandoned", .text "razed"]

/-- The mapper that is used when none is configured. -/
def standard : TagMapper := ⟨standardConfig, standardExcluded⟩

/-- The elements of a list, which have to be scalars; an object stands for the list of its names,
and a text for the list of its characters. -/
def elementsOf : Json → Except Fault (List Scalar)
  | .array items => items.mapM fun j => match j with
    | .scalar v => .ok v
    | other => .error (.noElement other.kind)
  | .object members => .ok (members.map fun m => .text m.1)
  | .scalar (.text s) => .ok (s.map fun c => .text [c])
  | other => .error (.noElements other.kind)

/-- The categories that a configuration excludes, each once. -/
def excludedBy (config : Json) : Except Fault (List Scalar) := do
  match Json.get? (← membersOf config) "excluded_categories" with
  | some j => return (← elementsOf j).eraseDupsBy Scalar.sameValue
  | none => return standardExcluded

/-- The mapper with a configuration. The excluded categories are the given ones, else those of the
configuration, else the standard ones. A configuration that is `null` is none. -/
def ofConfig (config : Option Json) (excluded : Option (List Scalar)) :
    Except Fault TagMapper := do
  let config := match config with
    | none | some (.scalar .null) => standardConfig
    | some j => j
  match excluded with
  | some given => return ⟨config, given.eraseDupsBy Scalar.sameValue⟩
  | none => return ⟨config, ← excludedBy config⟩

/-- The mapper with the configuration that the text of a file holds. -/
def ofText (text : Text) : Except Fault TagMapper := do
  ofConfig (some (← (Json.readFile text).mapError Fault.ofFailure)) none

/-! ## Attributes -/

def category (tags : OrderedMap Text Scalar) : Option Scalar :=
  match tags.get? "highway" with
  | some .null => none
  | other => other

def tagText (tags : OrderedMap Text Scalar) (key : Text) : Option Text :=
  match tags.get? key with
  | some .null => none
  | other => other.map Scalar.plain

/-- The rule of a category; a category that is not configured has an empty one. -/
def ruleOf (m : TagMapper) (category : Option Scalar) : Except Fault CategoryRule := do
  match category with
  | none => return ⟨none, none⟩
  | some category =>
    let rules ← membersOf (part (← membersOf m.config) "highway")
    let rule ← match category with
      | .text name => membersOf (part rules name)
      | _ => pure []
    return ⟨Json.get? rule "speed_factor", Json.get? rule "max_speed_kmh"⟩

/-- Whether a category is one of those that cannot be travelled. -/
def excludes (m : TagMapper) (category : Scalar) : Bool := m.excluded.any category.sameValue

/-- Whether a way can be travelled: it has a category, and the category is not excluded. -/
def isRoutable (m : TagMapper) (tags : OrderedMap Text Scalar) : Bool :=
  match category tags with
  | some c => c.isSomething && !m.excludes c
  | none => false

variable {α : Type} [Quantity α]

/-- The factor of a category: the configured one, else one. -/
def speedFactor (m : TagMapper) (category : Option Scalar) : Except Fault α := do
  match (← m.ruleOf category).speedFactor with
  | some j => Quantity.ofSetting j
  | none => return Quantity.ofNat 1

/-- The speed of a category: the configured one, else fifty. -/
def categorySpeed (m : TagMapper) (category : Option Scalar) : Except Fault α := do
  match (← m.ruleOf category).maxSpeed with
  | some j => Quantity.ofSetting j
  | none => return Quantity.ofNat 50

def direction (tags : OrderedMap Text Scalar) : Direction :=
  match tagText tags "oneway" with
  | some s => .ofText s
  | none => .both

/-- The attributes of a way by its tags. A tagged speed goes before that of the category. -/
def attributes (m : TagMapper) (tags : OrderedMap Text Scalar) :
    Except Fault (WayAttributes α) := do
  let factor ← m.speedFactor (category tags)
  let speed ← m.categorySpeed (category tags)
  return {
    category := category tags
    routable := m.isRoutable tags
    speedFactor := factor
    maxSpeed := ((tagText tags "maxspeed").bind Speed.ofText?).getD speed
    direction := direction tags
    tags := tags }

end TagMapper

end RoadRules
