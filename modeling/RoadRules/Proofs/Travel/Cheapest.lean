import RoadRules.Proofs.Number.Rational
import RoadRules.Proofs.Travel.Cost
import RoadRules.Proofs.Travel.Order
import RoadRules.Router

set_option autoImplicit false

/-! # A route without a budget is a cheapest path

On a network whose edges cost nothing less than zero, a search without a limit finds a route if and
only if some path has a bounded cost, and then the cost of the route is the least of all such
paths. Paths may come through a node more than once and use any of several edges between the same
two nodes. -/

namespace RoadRules

variable {α : Type} [Quantity α] [LawfulQuantity α]

namespace Network

variable {g : Network α} {policy : Policy α} {t : Traveller α} {start goal : Ident}

theorem admissible_steps (hpenalty : Quantity.zero < policy.penalty)
    (hcost : ∀ e ∈ g.edges, Quantity.zero ≤ e.cost) :
    Search.Admissible g.nodes.keys (g.steps policy t) where
  source _ _ _ h := (mem_steps.mp h).2.1
  target _ e _ h := (g.inStep.closed e (mem_steps.mp h).1).2
  nonneg _ e _ h :=
    Edge.stepFor_nonneg hpenalty (hcost e (mem_steps.mp h).1) (mem_steps.mp h).2.2

/-- Without a budget a route is missing, and then no path has a bounded cost, or it is a path with
the least cost of all. -/
theorem route_unlimited (t : Traveller α) (hpenalty : Quantity.zero < policy.penalty)
    (hcost : ∀ e ∈ g.edges, Quantity.zero ≤ e.cost) (hne : start ≠ goal)
    (hstart : g.hasNode start = true) (hgoal : g.hasNode goal = true) :
    (g.route policy t .unlimited start goal = .missing false ∧
      ∀ es c, g.IsPath policy t start goal es c → ¬Quantity.isBounded c = true) ∨
    ∃ es c, g.route policy t .unlimited start goal = .along start es c false ∧
      g.IsPath policy t start goal es c ∧ Quantity.isBounded c = true ∧
        ∀ es' c', g.IsPath policy t start goal es' c' → Quantity.isBounded c' = true →
          c ≤ c' := by
  have hsteps : Search.Admissible g.nodes.keys (g.steps policy t) :=
    admissible_steps hpenalty hcost
  have hmem := mem_keys_of_hasNode hstart
  have hend : ((Search.start g.nodes.keys start).run (g.steps policy t) .unlimited goal 0).2 =
      false := Search.run_unlimited
  have hfinal := Search.run_final hend
  have hrunning : Search.Running g.nodes.keys (g.steps policy t) start goal
      ((Search.start g.nodes.keys start).run (g.steps policy t) .unlimited goal 0).1 :=
    (Search.Running.ofStart g.nodes.nodup hmem (mem_keys_of_hasNode hgoal)).run hsteps 0
  rw [route_eq_ofSearch policy t .unlimited hne hstart hgoal]
  generalize (Search.start g.nodes.keys start).run (g.steps policy t) .unlimited goal 0 = outcome
    at hrunning hend hfinal ⊢
  cases hl : outcome.1.labels.get? goal with
  | none =>
      left
      refine ⟨hend ▸ Route.ofSearch_missing hl, ?_⟩
      intro es c hpath hbounded
      obtain ⟨l, hl', -⟩ :=
        hrunning.cheapest hsteps hmem hfinal (isPath_iff.mp hpath) hbounded
      rw [hl] at hl'
      cases hl'
  | some l =>
      right
      obtain ⟨es, htrail, hroute⟩ := Route.ofSearch_along hrunning.traced hl
      refine ⟨es, l.cost, hend ▸ hroute, isPath_iff.mpr htrail.trail.path,
        hrunning.ordered.bounded goal l hl, ?_⟩
      intro es' c' hpath hbounded
      obtain ⟨k, hk, hle⟩ :=
        hrunning.cheapest hsteps hmem hfinal (isPath_iff.mp hpath) hbounded
      have hkl : k = l := Option.some.inj (hk.symm.trans hl)
      rwa [hkl] at hle

end Network

/-! ## A small network

A triangle with a detour that is cheaper than the direct edges, of which there are two, and with an
edge from a node to itself. -/

/-- A car at the first midnight of the calendar. -/
def earlyCar : Traveller ℚ := ⟨Profile.ofClass .car, ⟨0, by decide⟩, none, none⟩

namespace Network

/-- An edge of a small network, with no restrictions. -/
def plainEdge (id : Nat) (source target : Int) (cost : ℚ) : Edge ℚ where
  source := .number source
  target := .number target
  way := .number 1
  cost := cost
  length := cost
  restrictions := []
  bidirectional := false
  forward := true
  id := id

def triangleEdges : List (Edge ℚ) :=
  [plainEdge 0 1 1 0, plainEdge 1 1 3 3, plainEdge 2 1 3 4, plainEdge 3 1 2 1, plainEdge 4 2 3 1]

def triangleWay : Way ℚ where
  id := .number 1
  tags := .empty
  nodes := [1, 2, 3].map fun n => ⟨.number n, 0, 0⟩

def triangle : Network ℚ where
  toSnapshot := .ofDraft (Draft.empty.enter triangleWay (triangleEdges.map Edge.toLink))
  inStep := ⟨_, Draft.settled_empty.enter (by unfold Draft.LinksOn; decide) (by decide) (by decide),
    rfl⟩

theorem edges_triangle : triangle.edges = triangleEdges := rfl

/-- Without restrictions every traveller pays the cost of an edge. -/
theorem stepFor_plainEdge (policy : Policy ℚ) (t : Traveller ℚ) (id : Nat) (source target : Int)
    (cost : ℚ) : (plainEdge id source target cost).stepFor policy t = some cost := rfl

theorem isPath_triangle :
    triangle.IsPath .standard earlyCar (.number 1) (.number 3)
      [plainEdge 3 1 2 1, plainEdge 4 2 3 1] 2 := by
  refine ⟨by simp [edges_triangle, triangleEdges], ⟨rfl, rfl, rfl⟩, ?_⟩
  simp only [Edge.totalFor, List.foldlM_cons, List.foldlM_nil, stepFor_plainEdge]
  decide +kernel

/-- No edge of the triangle costs less than zero. -/
theorem cost_triangle : ∀ e ∈ triangle.edges, (Quantity.zero : ℚ) ≤ e.cost := by
  intro e he
  show (0 : ℚ) ≤ e.cost
  simp only [edges_triangle, triangleEdges, List.mem_cons, List.not_mem_nil, or_false] at he
  rcases he with rfl | rfl | rfl | rfl | rfl <;> norm_num [plainEdge]

end Network

/-- The penalty that is used when none is given is greater than zero. -/
theorem Policy.penalty_standard : (Quantity.zero : ℚ) < (Policy.standard : Policy ℚ).penalty := by
  show (0 : ℚ) < (1 : ℚ) * (15 : ℕ) * 10 ^ (-1 : ℤ)
  norm_num

def Router.overTriangle : Router ℚ := ⟨.standard, .standard, .triangle, []⟩

/-! ## Routes of a router -/

namespace Router

/-- **A route without a budget is a cheapest path.** It is found if some path has a bounded cost,
and then its cost is the least of the bounded costs of paths; if there is none, nothing is found and
nothing was cut short. The penalty of a policy is checked when the policy is read. -/
theorem route_cheapest (r : Router α) (t : Traveller α) {start goal : Ident}
    (hpenalty : Quantity.zero < r.policy.penalty)
    (hcost : ∀ e ∈ r.network.edges, Quantity.zero ≤ e.cost) (hne : start ≠ goal)
    (hstart : r.network.hasNode start = true) (hgoal : r.network.hasNode goal = true) :
    ((∃ es c, r.network.IsPath r.policy t start goal es c ∧ Quantity.isBounded c = true) →
      (r.route t .unlimited start goal).found = true ∧
      ∃ es c, (r.route t .unlimited start goal).cost = some c ∧
        r.network.IsPath r.policy t start goal es c ∧ Quantity.isBounded c = true ∧
        ∀ es' c', r.network.IsPath r.policy t start goal es' c' → Quantity.isBounded c' = true →
          c ≤ c') ∧
    ((¬∃ es c, r.network.IsPath r.policy t start goal es c ∧ Quantity.isBounded c = true) →
      r.route t .unlimited start goal = .missing false) := by
  unfold route
  rcases Network.route_unlimited t hpenalty hcost hne hstart hgoal with
    ⟨hroute, hno⟩ | ⟨es, c, hroute, hpath, hbounded, hleast⟩
  · constructor
    · rintro ⟨es, c, hpath, hbounded⟩
      exact absurd hbounded (hno es c hpath)
    · exact fun _ => hroute
  · rw [hroute]
    constructor
    · exact fun _ => ⟨rfl, es, c, rfl, hpath, hbounded, hleast⟩
    · exact fun hnone => absurd ⟨es, c, hpath, hbounded⟩ hnone

theorem route_cheapest_triangle :
    (overTriangle.route earlyCar .unlimited (.number 1) (.number 3)).found = true ∧
      ∃ c : ℚ, (overTriangle.route earlyCar .unlimited (.number 1) (.number 3)).cost = some c ∧
        c ≤ 2 := by
  obtain ⟨hfound, es, c, hcost, -, -, hleast⟩ :=
    (route_cheapest overTriangle earlyCar Policy.penalty_standard Network.cost_triangle
      (by decide) (by decide) (by decide)).1 ⟨_, 2, Network.isPath_triangle, rfl⟩
  exact ⟨hfound, c, hcost, hleast _ 2 Network.isPath_triangle rfl⟩

end Router

end RoadRules
