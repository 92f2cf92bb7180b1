import RoadRules.Budget
import RoadRules.Condition.Reader
import RoadRules.Way.Basic

set_option autoImplicit false

/-! # The restrictions of a map

Reading the conditional tags of many ways. Only tags with the wanted keys are read; a tag that is
refused becomes an issue and disturbs no other tag. A way that comes again under the same
identifier replaces the restrictions of the way before it. -/

namespace RoadRules

/-- A conditional tag that was refused. -/
structure Issue where
  way : Ident
  key : Text
  raw : Text
  cause : Condition.Refusal
deriving DecidableEq, Repr

/-- The keys of the conditional tags that are read when no keys are given. -/
def standardKeys : List Text :=
  let subjects : List Text :=
    ["access", "oneway", "hgv", "maxspeed", "parking", "bicycle", "motor_vehicle", "foot"]
  subjects.map (· ++ conditionalEnding)

/-- The restrictions of the ways of a map. -/
structure RestrictionIndex (α : Type) where
  /-- The restrictions of each way that has any, in the order of the ways. -/
  byWay : OrderedMap Ident (List (Restriction α))
  /-- The tags that were refused, in the order of ways and tags. -/
  issues : List Issue
  truncated : Bool

/-- What a conditional tag states: a restriction, or an issue. -/
def readTag {α : Type} [Quantity α] (way : Ident) (tag : Text × Text) :
    Except Fault (Restriction α ⊕ Issue) :=
  match Restriction.read tag.1 (some tag.2) with
  | .ok r => .ok (.inl r)
  | .error (.refused _ cause) => .ok (.inr ⟨way, tag.1, tag.2, cause⟩)
  | .error f => .error f

/-- The restrictions among the readings of tags. -/
def restrictionsOf {α : Type} (readings : List (Restriction α ⊕ Issue)) : List (Restriction α) :=
  readings.filterMap Sum.getLeft?

def issuesOf {α : Type} (readings : List (Restriction α ⊕ Issue)) : List Issue :=
  readings.filterMap Sum.getRight?

namespace Way

variable {α : Type} [Quantity α]

/-- The readings of the tags of a way with the wanted keys, in the order of the tags. -/
def readings (w : Way α) (keys : List Text) : Except Fault (List (Restriction α ⊕ Issue)) :=
  (w.tags.entries.filter fun e => keys.contains e.1).mapM (readTag w.id)

/-- The restrictions and issues of a way, in the order of the tags. -/
def restrictions (w : Way α) (keys : List Text) :
    Except Fault (List (Restriction α) × List Issue) := do
  let rs ← w.readings keys
  return (restrictionsOf rs, issuesOf rs)

end Way

namespace RestrictionIndex

variable {α : Type}

def empty : RestrictionIndex α := ⟨.empty, [], false⟩

def restrictionsFor (ix : RestrictionIndex α) (way : Ident) : List (Restriction α) :=
  (ix.byWay.get? way).getD []

def issuesFor (ix : RestrictionIndex α) (way : Ident) : List Issue :=
  ix.issues.filter fun i => i.way == way

def count (ix : RestrictionIndex α) : Nat :=
  (ix.byWay.values.map List.length).foldr (· + ·) 0

/-- The index with the restrictions and issues of one more way. -/
def add (ix : RestrictionIndex α) (way : Ident) (rs : List (Restriction α)) (issues : List Issue) :
    RestrictionIndex α where
  byWay := if rs.isEmpty then ix.byWay else ix.byWay.insert way rs
  issues := ix.issues ++ issues
  truncated := ix.truncated

variable [Quantity α]

/-- The index with what the wanted tags of one more way say. -/
def addWay (keys : List Text) (ix : RestrictionIndex α) (w : Way α) :
    Except Fault (RestrictionIndex α) := do
  let (rs, issues) ← w.restrictions keys
  return ix.add w.id rs issues

/-- The index of the ways of a map, as far as the budget allows; a way is one unit of work. -/
def ofWays (ways : List (Way α)) (keys : List Text) (budget : Budget) :
    Except Fault (RestrictionIndex α) := do
  let (ix, truncated) ← budget.scan (addWay keys) 0 empty ways
  return { ix with truncated := truncated }

end RestrictionIndex

end RoadRules
