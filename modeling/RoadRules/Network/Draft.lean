import RoadRules.Network.Snapshot
import RoadRules.Way.TagMapper

set_option autoImplicit false

/-! # Building road networks

A network is built from tagged ways, one after the other. A way takes part if it has at least two
nodes and its category can be travelled; else it is skipped. Each of its segments makes a link along
the nodes unless the way may only be travelled against them, and then a link against the nodes
unless it may only be travelled along them. All links of a way carry the same restrictions.

The tables of the network grow together: a link is numbered, put into the graph and into the list of
edges, and counted if it is restricted. A fault at any way ends the building. -/

namespace RoadRules

namespace Way

variable {α : Type}

def scalarTags (w : Way α) : OrderedMap Text Scalar := w.tags.mapValues Scalar.text

def takesPart (m : TagMapper) (w : Way α) : Bool :=
  decide (2 ≤ w.nodes.length) && m.isRoutable w.scalarTags

theorem length_of_takesPart {m : TagMapper} {w : Way α} (h : w.takesPart m = true) :
    2 ≤ w.nodes.length := by
  unfold takesPart at h
  rw [Bool.and_eq_true, decide_eq_true_eq] at h
  exact h.1

end Way

/-- The links of a segment, with their length and cost: the one along the nodes first. -/
def Link.ofSegment {α : Type} [Geometry α] (metric : Metric) (way : Ident)
    (attributes : WayAttributes α) (rs : List (Restriction α)) (a b : Node α) :
    Except Fault (List (Link α)) := do
  let length ← Geometry.distance metric a b
  if Quantity.isZero attributes.speedFactor then .error .zeroDivisor
  else
    let link (source target : Ident) (forward : Bool) : Link α :=
      { source, target, way, cost := length / attributes.speedFactor, length, restrictions := rs
        bidirectional := attributes.direction == .both, forward }
    return (if attributes.direction.allowsForward then [link a.id b.id true] else []) ++
      (if attributes.direction.allowsBackward then [link b.id a.id false] else [])

/-- The tables of a network that is being built. -/
structure Draft (γ α : Type) where
  graph : γ
  edges : List (Edge α)
  ways : OrderedMap Ident (Way α)
  /-- The number of ways that were skipped. -/
  skipped : Nat
  /-- The number of edges with restrictions. -/
  restricted : Nat

namespace Draft

variable {γ α : Type} [Multigraph γ α]

def empty : Draft γ α := ⟨Multigraph.empty, [], .empty, 0, 0⟩

/-- A node that is in the graph keeps its place and its coordinates. -/
def addNode (d : Draft γ α) (n : Node α) : Draft γ α :=
  if (Multigraph.nodes d.graph).contains n.id then d
  else { d with graph := Multigraph.addNode d.graph n }

/-- The draft with a link as its next edge. -/
def addLink (d : Draft γ α) (l : Link α) : Draft γ α :=
  let e : Edge α := { l with id := d.edges.length }
  { d with
    graph := Multigraph.addEdge d.graph e
    edges := d.edges ++ [e]
    restricted := if e.restrictions.isEmpty then d.restricted else d.restricted + 1 }

def addWayEntry (d : Draft γ α) (w : Way α) : Draft γ α :=
  { d with ways := d.ways.insert w.id w }

def skip (d : Draft γ α) : Draft γ α := { d with skipped := d.skipped + 1 }

variable [Geometry α]

def addSegment (metric : Metric) (way : Ident) (attributes : WayAttributes α)
    (rs : List (Restriction α)) (d : Draft γ α) (s : Node α × Node α) :
    Except Fault (Draft γ α) := do
  let links ← Link.ofSegment metric way attributes rs s.1 s.2
  return links.foldl addLink d

variable (m : TagMapper) (metric : Metric) (restrictionsOf : Ident → List (Restriction α))

def addWay (d : Draft γ α) (w : Way α) : Except Fault (Draft γ α) :=
  if w.takesPart m then do
    let attributes ← m.attributes w.scalarTags
    w.segments.foldlM (addSegment metric w.id attributes (restrictionsOf w.id))
      (w.nodes.foldl addNode (d.addWayEntry w))
  else .ok d.skip

/-- The draft of the ways of a list, whose restrictions are looked up by the identifiers of the
ways. -/
def ofWays (ws : List (Way α)) : Except Fault (Draft γ α) :=
  ws.foldlM (addWay m metric restrictionsOf) empty

end Draft

namespace Snapshot

variable {γ α : Type} [Multigraph γ α]

/-- The snapshot of a draft, with its counts. -/
def ofDraft (d : Draft γ α) : Snapshot γ α :=
  ofTables d.graph d.edges d.ways
    { nodes := (Multigraph.nodes d.graph).size
      edges := d.edges.length
      ways := d.ways.size
      skipped := d.skipped
      restricted := d.restricted }

/-- The snapshot of the network of a list of ways. -/
def ofWays [Geometry α] (m : TagMapper) (metric : Metric)
    (restrictionsOf : Ident → List (Restriction α)) (ws : List (Way α)) :
    Except Fault (Snapshot γ α) :=
  (Draft.ofWays m metric restrictionsOf ws).map ofDraft

end Snapshot

end RoadRules
