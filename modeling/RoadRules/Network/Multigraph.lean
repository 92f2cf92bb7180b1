import RoadRules.Network.Edge
import RoadRules.OrderedMap

set_option autoImplicit false

/-! # Directed multigraphs

The container that a network is put together in. It holds nodes and edges with their data, and there
may be many edges from one node to another, told apart by their numbers. What a network needs of a
container is named by `Multigraph`: nodes and edges are added one at a time, and the container tells
its nodes and, for each node, the edges that leave it. How the one depends on the other is what
`LawfulMultigraph` says, step by step. `AdjacencyMaps` is such a container: maps by the source of
the edges, by their target and by their number, in which each key keeps the place where it came
first. -/

namespace RoadRules

/-- The edges that leave one node: under each node where one ends, the edges that end there, under
their numbers. -/
abbrev AdjacencyRow (α : Type) : Type := OrderedMap Ident (OrderedMap Nat (Edge α))

namespace AdjacencyRow

variable {α : Type}

/-- The row with one more edge. -/
def addEdge (row : AdjacencyRow α) (e : Edge α) : AdjacencyRow α :=
  row.alter e.target fun keyed => (keyed.getD .empty).insert e.id e

/-- The row that edges make one after the other. -/
def ofEdges (es : List (Edge α)) : AdjacencyRow α := es.foldl addEdge OrderedMap.empty

theorem ofEdges_concat (es : List (Edge α)) (e : Edge α) :
    ofEdges (es ++ [e]) = (ofEdges es).addEdge e := by
  simp [ofEdges]

/-- The edges of a row, target after target. -/
def edges (row : AdjacencyRow α) : List (Edge α) :=
  row.values.flatMap OrderedMap.values

/-- The edges of a row that end at a node. -/
def edgesTo (row : AdjacencyRow α) (target : Ident) : List (Edge α) :=
  match row.get? target with
  | none => []
  | some keyed => keyed.values

end AdjacencyRow

/-- A container of nodes and of edges between them. -/
class Multigraph (γ : Type) (α : outParam Type) where
  empty : γ
  addNode : γ → Node α → γ
  addEdge : γ → Edge α → γ
  /-- The nodes under their identifiers, in the order in which they came. -/
  nodes : γ → OrderedMap Ident (Node α)
  row : γ → Ident → AdjacencyRow α

open Multigraph in
/-- The laws of a container of nodes and edges. -/
class LawfulMultigraph (γ : Type) {α : outParam Type} [Multigraph γ α] : Prop where
  nodes_empty : nodes (empty : γ) = OrderedMap.empty
  nodes_addNode : ∀ (graph : γ) (n : Node α), nodes (addNode graph n) = (nodes graph).insert n.id n
  /-- An edge between nodes of the graph brings no node with it. -/
  nodes_addEdge : ∀ (graph : γ) (e : Edge α), e.source ∈ (nodes graph).keys →
    e.target ∈ (nodes graph).keys → nodes (addEdge graph e) = nodes graph
  row_empty : ∀ id, row (empty : γ) id = OrderedMap.empty
  row_addNode : ∀ (graph : γ) (n : Node α) id, row (addNode graph n) id = row graph id
  /-- An edge goes to the row of the node that it leaves, and to no other. -/
  row_addEdge : ∀ (graph : γ) (e : Edge α) id, row (addEdge graph e) id =
    if e.source = id then (row graph id).addEdge e else row graph id

/-- Nodes under their identifiers, and the rows of the nodes that are left. -/
structure AdjacencyMaps (α : Type) where
  nodes : OrderedMap Ident (Node α)
  rows : OrderedMap Ident (AdjacencyRow α)

instance {α : Type} : Multigraph (AdjacencyMaps α) α where
  empty := ⟨.empty, .empty⟩
  addNode graph n := { graph with nodes := graph.nodes.insert n.id n }
  addEdge graph e :=
    { graph with rows := graph.rows.alter e.source fun row => (row.getD .empty).addEdge e }
  nodes := AdjacencyMaps.nodes
  row graph id := (graph.rows.get? id).getD .empty

instance {α : Type} : LawfulMultigraph (AdjacencyMaps α) where
  nodes_empty := rfl
  nodes_addNode _ _ := rfl
  nodes_addEdge _ _ _ _ := rfl
  row_empty _ := rfl
  row_addNode _ _ _ := rfl
  row_addEdge graph e id := by
    show ((graph.rows.insert e.source _).get? id).getD .empty = _
    rw [OrderedMap.get?_insert]
    by_cases h : id = e.source
    · cases h
      rw [if_pos rfl, if_pos rfl]
      rfl
    · rw [if_neg h, if_neg (Ne.symm h)]
      rfl

end RoadRules
