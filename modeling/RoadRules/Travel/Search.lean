import RoadRules.Budget
import RoadRules.Network.Edge
import RoadRules.OrderedMap

set_option autoImplicit false

/-! # Cheapest paths

The search for a cheapest path from one node to another. Nodes are settled one after the other in
the order of what it costs to reach them; settling a node looks at the steps that leave it and
improves the labels of the nodes where they end. A label holds the least cost that is known for a
node and the edge that the path enters it by, so the path is found by going back from label to
label.

The search works on the steps that leave a node, each an edge with its cost, and on nothing else
of the network. Settling a node is one unit of work of the budget. The search ends for any costs:
every round settles a node for good or takes an entry from the queue. -/

namespace RoadRules

/-- What is known about the way to a node. -/
structure Label (α : Type) where
  /-- The least cost found. -/
  cost : α
  /-- The edge by which the path enters the node; the start has none. -/
  entry : Option (Edge α)

/-- The state of a search. -/
structure Search (α : Type) where
  /-- The nodes to look at with their costs: ascending, and the older first of two with the same
  cost. -/
  queue : List (α × Ident)
  labels : OrderedMap Ident (Label α)
  unsettled : List Ident

namespace Search

variable {α : Type} [Quantity α]

/-- The search that has only reached its start. -/
def start (nodes : List Ident) (id : Ident) : Search α where
  queue := [(Quantity.zero, id)]
  labels := OrderedMap.empty.insert id ⟨Quantity.zero, none⟩
  unsettled := nodes

/-- A queue with one more entry, behind all that cost no more. -/
def enqueue (cost : α) (id : Ident) : List (α × Ident) → List (α × Ident)
  | [] => [(cost, id)]
  | e :: rest => if cost < e.1 then (cost, id) :: e :: rest else e :: enqueue cost id rest

/-- Whether a cost is less than that of a label; a missing label costs more than anything that is
bounded. -/
def improves (cost : α) : Option (Label α) → Bool
  | some l => decide (cost < l.cost)
  | none => Quantity.isBounded cost

/-- The search after looking at one step that leaves a node of the given cost. -/
def relax (cost : α) (s : Search α) (step : Edge α × α) : Search α :=
  let target := step.1.target
  let candidate := cost + step.2
  if target ∈ s.unsettled ∧ improves candidate (s.labels.get? target) then
    { s with
      queue := enqueue candidate target s.queue
      labels := s.labels.insert target ⟨candidate, some step.1⟩ }
  else s

/-- The search after its first entry, a node that is not settled, is settled; the steps that leave
it are not looked at. -/
def settle (s : Search α) (id : Ident) (rest : List (α × Ident)) : Search α :=
  { s with queue := rest, unsettled := s.unsettled.erase id }

@[simp] theorem unsettled_relax (cost : α) (s : Search α) (step : Edge α × α) :
    (relax cost s step).unsettled = s.unsettled := by
  unfold relax
  simp only
  split <;> rfl

@[simp] theorem unsettled_foldl_relax (cost : α) (steps : List (Edge α × α)) (s : Search α) :
    (steps.foldl (relax cost) s).unsettled = s.unsettled := by
  induction steps generalizing s with
  | nil => rfl
  | cons step rest ih => rw [List.foldl_cons, ih, unsettled_relax]

/-- The search as far as the budget allows, when `spent` nodes are settled already, and whether
the budget ran out. It ends at the goal, or when nothing is left to look at. -/
def run (steps : Ident → List (Edge α × α)) (budget : Budget) (goal : Ident) (spent : Nat)
    (s : Search α) : Search α × Bool :=
  match h : s.queue with
  | [] => (s, false)
  | (cost, id) :: rest =>
    if id ∈ s.unsettled then
      if id = goal then (s, false)
      else if budget.allows spent then
        run steps budget goal (spent + 1) ((steps id).foldl (relax cost) (s.settle id rest))
      else (s.settle id rest, true)
    else run steps budget goal spent { s with queue := rest }
termination_by (s.unsettled.length, s.queue.length)
decreasing_by
  · rename_i hmem _ _
    have hpos : 0 < s.unsettled.length := List.length_pos_of_mem hmem
    apply Prod.Lex.left
    rw [unsettled_foldl_relax]
    simp only [settle, List.length_erase_of_mem hmem]
    omega
  · apply Prod.Lex.right
    simp [h]

/-- The edges from the start to a node by the entries of the labels, in the order of travel. Going
back takes at most the given number of edges. -/
def trace? (labels : OrderedMap Ident (Label α)) (start : Ident) :
    Nat → Ident → Option (List (Edge α))
  | 0, id => if id = start then some [] else none
  | n + 1, id =>
    if id = start then some []
    else
      match (labels.get? id).bind Label.entry with
      | some e => (trace? labels start n e.source).map (· ++ [e])
      | none => none

end Search

end RoadRules
