import RoadRules.Budget
import RoadRules.Survey.Index

set_option autoImplicit false

/-! # The summary of a map

Counts of the conditional tags of a map: how many there are, how many state restrictions, and of
which kinds these are. Every conditional tag counts, whatever its key. -/

namespace RoadRules

/-- Counts of the conditional tags of a map. -/
structure Summary where
  ways : Nat
  waysWithTags : Nat
  tags : Nat
  restrictions : Nat
  refused : Nat
  timeBased : Nat
  weightBased : Nat
  heightBased : Nat
  blocking : Nat
  bySubject : OrderedMap Text Nat
  truncated : Bool

namespace Summary

def empty : Summary := ⟨0, 0, 0, 0, 0, 0, 0, 0, 0, .empty, false⟩

/-- One if something is the case, and zero if it is not. -/
def one (b : Bool) : Nat := if b then 1 else 0

variable {α : Type} [Quantity α]

def addRestriction (s : Summary) (r : Restriction α) : Summary :=
  { s with
    tags := s.tags + 1
    restrictions := s.restrictions + 1
    timeBased := s.timeBased + one (!r.windows.isEmpty)
    weightBased := s.weightBased + one r.weight.isSome
    heightBased := s.heightBased + one r.height.isSome
    blocking := s.blocking + one (Effect.denies (normalized r.value))
    bySubject := s.bySubject.alter r.subject fun n => n.getD 0 + 1 }

def addRefused (s : Summary) : Summary := { s with tags := s.tags + 1, refused := s.refused + 1 }

/-- The summary with the reading of one more tag. -/
def addReading (s : Summary) (reading : Restriction α ⊕ Issue) : Summary :=
  match reading with
  | .inl r => s.addRestriction r
  | .inr _ => s.addRefused

def addWay (s : Summary) (w : Way α) : Except Fault Summary := do
  let tags := w.conditionalTags
  let readings ← tags.mapM (readTag (α := α) w.id)
  let s : Summary :=
    { s with ways := s.ways + 1, waysWithTags := s.waysWithTags + one (!tags.isEmpty) }
  return readings.foldl addReading s

/-- The summary of the ways of a map, as far as the budget allows; a way is one unit of work. -/
def ofWays (ways : List (Way α)) (budget : Budget) : Except Fault Summary := do
  let (s, truncated) ← budget.scan addWay 0 empty ways
  return { s with truncated := truncated }

end Summary

end RoadRules
