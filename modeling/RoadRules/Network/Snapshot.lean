import RoadRules.Network.Geometry
import RoadRules.Network.Multigraph

set_option autoImplicit false

/-! # Snapshots of road networks

A snapshot holds the tables that a network is built with: a container of nodes and edges, the list
of all edges, the ways, the edges under their ways, and the counts that were kept on the way. It is
a value that is made once and then only looked at. Every view of it answers for unknown nodes and
ways too, with nothing. -/

namespace RoadRules

/-- The counts of a network. -/
structure Statistics where
  nodes : Nat
  edges : Nat
  ways : Nat
  skipped : Nat
  restricted : Nat
deriving DecidableEq, Repr

/-- The tables of a road network. -/
structure Snapshot (γ α : Type) where
  graph : γ
  /-- The edges, in the order of their numbers. -/
  edges : List (Edge α)
  /-- The ways with edges; of several ways with one identifier, the last. -/
  ways : OrderedMap Ident (Way α)
  statistics : Statistics
  /-- The edges of each way. -/
  byWay : OrderedMap Ident (List (Edge α))

namespace Snapshot

variable {γ α : Type}

/-- The table of the edges of each way with one more edge. -/
def enter (table : OrderedMap Ident (List (Edge α))) (e : Edge α) :
    OrderedMap Ident (List (Edge α)) :=
  table.alter e.way fun es => es.getD [] ++ [e]

/-- The snapshot of the tables of a builder; the edges are put under their ways one by one. -/
def ofTables (graph : γ) (edges : List (Edge α)) (ways : OrderedMap Ident (Way α))
    (statistics : Statistics) : Snapshot γ α where
  graph := graph
  edges := edges
  ways := ways
  statistics := statistics
  byWay := edges.foldl enter .empty

def edgeCount (s : Snapshot γ α) : Nat := s.edges.length

def wayCount (s : Snapshot γ α) : Nat := s.byWay.size

def way? (s : Snapshot γ α) (id : Ident) : Option (Way α) := s.ways.get? id

def edgesOf (s : Snapshot γ α) (way : Ident) : List (Edge α) := (s.byWay.get? way).getD []

/-- The identifiers of the ways that own edges. -/
def owners (s : Snapshot γ α) : List Ident := s.byWay.keys

variable [Multigraph γ α]

def empty : Snapshot γ α := ofTables Multigraph.empty [] .empty ⟨0, 0, 0, 0, 0⟩

/-- The nodes, in the order in which the ways reach them. -/
def nodes (s : Snapshot γ α) : OrderedMap Ident (Node α) := Multigraph.nodes s.graph

def nodeCount (s : Snapshot γ α) : Nat := s.nodes.size

def hasNode (s : Snapshot γ α) (id : Ident) : Bool := s.nodes.contains id

def node? (s : Snapshot γ α) (id : Ident) : Option (Node α) := s.nodes.get? id

/-- The edges that start at a node, grouped by the nodes where they end. -/
def outEdges (s : Snapshot γ α) (id : Ident) : List (Edge α) :=
  if s.hasNode id then (Multigraph.row s.graph id).edges else []

def edgesBetween (s : Snapshot γ α) (source target : Ident) : List (Edge α) :=
  (Multigraph.row s.graph source).edgesTo target

/-- The edges in the order of the nodes where they start. -/
def edgesByNode (s : Snapshot γ α) : List (Edge α) := s.nodes.keys.flatMap s.outEdges

/-- A network as text with its kind: the numbers of nodes, edges and ways. -/
def label (s : Snapshot γ α) : String :=
  "RoutingGraph(nodes=" ++ toString s.nodeCount ++ ", edges=" ++ toString s.edgeCount ++
    ", ways=" ++ toString s.wayCount ++ ")"

/-- The first of the items that no other item comes before. -/
def foremost {β : Type} (before : β → β → Bool) : List β → Option β
  | [] => none
  | x :: rest =>
    match foremost before rest with
    | none => some x
    | some y => some (if before y x then y else x)

/-- Whether a node is nearer to a point of the plane than another, or as near and indexed before
it. -/
def isNearer [Geometry α] (x y : α) (a b : Node α) : Bool :=
  let near := Geometry.distanceFrom x y a
  let far := Geometry.distanceFrom x y b
  decide (near < far) || (!decide (far < near) && Geometry.isIndexedBefore a b)

/-- The node nearest to a point of the plane. A node whose first coordinate is not a number, so that
it is not even at most itself, has no place in the plane and is not found. -/
def nearest? [Geometry α] (s : Snapshot γ α) (x y : α) : Option (Node α) :=
  foremost (isNearer x y) (s.nodes.values.filter fun n => decide (n.x ≤ n.x))

end Snapshot

end RoadRules
