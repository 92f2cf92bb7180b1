import RoadRules.Network.Basic
import RoadRules.Travel.Cost
import RoadRules.Travel.Search

set_option autoImplicit false

/-! # Routes

The cheapest route of a traveller between two nodes of a network. There is none from a node to
itself, and none from or to a node that the network does not have. A search that runs out of its
budget gives the route it has found so far, if it has reached the end at all. -/

namespace RoadRules

/-- The outcome of the search for a route. -/
structure Route (α : Type) where
  /-- The nodes, from the start to the end; none if no route was found. -/
  nodes : List Ident
  /-- The ways travelled, each once for as long as it is followed. -/
  ways : List Ident
  /-- The cost, if a route was found. -/
  cost : Option α
  /-- Whether the budget ran out; then there may be a cheaper route. -/
  truncated : Bool

/-- A list with every stretch of equal neighbours as one item. -/
def collapse : List Ident → List Ident
  | a :: b :: rest => if a = b then collapse (b :: rest) else a :: collapse (b :: rest)
  | short => short

namespace Route

variable {α : Type}

/-- The outcome of a search that found no route. -/
def missing (truncated : Bool) : Route α := ⟨[], [], none, truncated⟩

def found (r : Route α) : Bool := !r.nodes.isEmpty

def along (start : Ident) (es : List (Edge α)) (cost : α) (truncated : Bool) : Route α where
  nodes := start :: es.map fun e => e.target
  ways := collapse (es.map fun e => e.way)
  cost := some cost
  truncated := truncated

variable [Quantity α]

/-- The route to the goal that a search has found. -/
def ofSearch (start goal : Ident) (outcome : Search α × Bool) : Route α :=
  let labels := outcome.1.labels
  match labels.get? goal, Search.trace? labels start labels.size goal with
  | some l, some es => along start es l.cost outcome.2
  | _, _ => missing outcome.2

end Route

namespace Network

variable {α : Type} [Quantity α]

/-- The steps by which a traveller can leave a node, with their costs. -/
def steps (g : Network α) (policy : Policy α) (t : Traveller α) (id : Ident) :
    List (Edge α × α) :=
  (g.outEdges id).filterMap fun e => (e.stepFor policy t).map fun c => (e, c)

/-- The cheapest route of a traveller from one node to another. -/
def route (g : Network α) (policy : Policy α) (t : Traveller α) (budget : Budget)
    (start goal : Ident) : Route α :=
  if start = goal ∨ !g.hasNode start ∨ !g.hasNode goal then .missing false
  else
    .ofSearch start goal
      ((Search.start g.nodes.keys start).run (g.steps policy t) budget goal 0)

/-! ## What restrictions do to the network -/

/-- The affected edges with one more edge, if a restriction on it is in force for a traveller. -/
def addAffected (t : Traveller α) (es : List (Edge α)) (e : Edge α) : Id (List (Edge α)) :=
  if (t.restrictionsInForce e.restrictions).isEmpty then es else es ++ [e]

/-- The edges with a restriction in force for a traveller, as far as the budget allows; an edge is
one unit of work. -/
def affectedEdges (g : Network α) (t : Traveller α) (budget : Budget) : List (Edge α) :=
  (budget.scan (addAffected t) 0 [] g.edges).1

/-- The ways with an affected edge, numbers ascending and then texts in their order. -/
def affectedWays (g : Network α) (t : Traveller α) (budget : Budget) : List Ident :=
  ((g.affectedEdges t budget).map fun e => e.way).eraseDups.mergeSort Ident.atMost

/-- Whether a traveller can travel some edge of a way. -/
def isAccessible (g : Network α) (policy : Policy α) (t : Traveller α) (way : Ident) : Bool :=
  (g.edgesOf way).any fun e => (e.stepFor policy t).isSome

end Network

end RoadRules
