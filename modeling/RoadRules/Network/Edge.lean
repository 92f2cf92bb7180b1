import RoadRules.Number.Quantity
import RoadRules.Way.Basic

set_option autoImplicit false

/-! # Edges of a road network

A link is one segment of a way travelled in one direction; a two-way segment makes two of them. In
a network the links are numbered, and a numbered link is an edge. Two edges with different numbers
are different even if all else is the same. -/

namespace RoadRules

/-- A segment of a way, travelled in one direction. -/
structure Link (α : Type) where
  source : Ident
  target : Ident
  way : Ident
  /-- What it costs to travel: the length divided by the speed factor of the way. -/
  cost : α
  length : α
  restrictions : List (Restriction α)
  bidirectional : Bool
  /-- Whether the link follows the order of the nodes of the way. -/
  forward : Bool

/-- A numbered link of a network. -/
structure Edge (α : Type) extends Link α where
  /-- The number, from zero on. -/
  id : Nat

namespace Edge

variable {α : Type}

/-- The edges that a list of links makes, numbered from `first` on. -/
def number (first : Nat) : List (Link α) → List (Edge α)
  | [] => []
  | l :: rest => { l with id := first } :: number (first + 1) rest

@[simp] theorem map_toLink_number (first : Nat) (ls : List (Link α)) :
    (number first ls).map Edge.toLink = ls := by
  induction ls generalizing first with
  | nil => rfl
  | cons l rest ih => simp [number, ih]

/-- The numbers run from the first one on without a gap. -/
theorem map_id_number (first : Nat) (ls : List (Link α)) :
    (number first ls).map Edge.id = List.range' first ls.length := by
  induction ls generalizing first with
  | nil => rfl
  | cons l rest ih => simp [number, ih, List.range'_succ]

/-- An edge as text with its kind: number, ends, way, cost in two places, and number of
restrictions. -/
def label [Quantity α] (e : Edge α) : Text :=
  "GraphEdge(" ++ toString e.id ++ ": " ++ e.source.text ++ "->" ++ e.target.text ++ ", way=" ++
    e.way.text ++ ", cost=" ++ Quantity.fixedText 2 e.cost ++ ", restrictions=" ++
    toString e.restrictions.length ++ ")"

end Edge

end RoadRules
