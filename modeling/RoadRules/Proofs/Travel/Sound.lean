import Mathlib.Data.List.Destutter
import RoadRules.Proofs.Travel.Cheapest

set_option autoImplicit false

/-! # Every route is a path

A route that is found, whatever the budget and whatever the costs are, follows edges of the network
from the start to the goal. No law of arithmetic or of order is used: a search that is cut short has
labels that may still get better, but each of them already ends a trail of settled nodes. -/

namespace RoadRules

/-! ## The ways of a route -/

/-- Collapsing the stretches of a list leaves out every item that equals the one kept before it. -/
theorem collapse_eq_destutter (l : List Ident) : collapse l = l.destutter (· ≠ ·) := by
  cases l with
  | nil => rfl
  | cons a l =>
      rw [List.destutter_cons']
      induction l generalizing a with
      | nil => rfl
      | cons b rest ih =>
          by_cases hab : a = b
          · subst hab
            rw [List.destutter'_cons_neg _ (by simp), ← ih]
            simp [collapse]
          · rw [List.destutter'_cons_pos _ hab, ← ih]
            simp [collapse, hab]

/-- The items that are left are items of the list. -/
theorem mem_of_mem_collapse {l : List Ident} {w : Ident} (h : w ∈ collapse l) : w ∈ l := by
  rw [collapse_eq_destutter] at h
  exact (List.destutter_sublist _ l).subset h

variable {α : Type} [Quantity α]

namespace Network

/-- **What a route says of the edges that it follows.** -/
structure Follows (g : Network α) (policy : Policy α) (t : Traveller α) (start goal : Ident)
    (route : Route α) (es : List (Edge α)) : Prop where
  -- There is an edge.
  ne_nil : es ≠ []
  -- The edges are edges of the network.
  edges : ∀ e ∈ es, e ∈ g.edges
  -- Each starts where the one before it ends.
  leads : Edge.Leads start es goal
  -- The nodes are the start and the nodes where the edges end.
  nodes : route.nodes = start :: es.map fun e => e.target
  -- The last node is the goal.
  last : route.nodes.getLast? = some goal
  -- No node occurs twice.
  nodup : route.nodes.Nodup
  -- The traveller can travel every edge.
  passable : ∀ e ∈ es, (e.stepFor policy t).isSome
  -- The cost is there: the costs of the edges added from zero in the order of travel.
  cost : ∃ c, route.cost = some c ∧ Edge.totalFor policy t es = some c
  -- The ways are those of the edges, each stretch of one way as one item.
  ways : route.ways = (es.map fun e => e.way).destutter (· ≠ ·)
  -- No two neighbours among the ways are equal.
  chain : route.ways.IsChain (· ≠ ·)
  -- The traveller can travel every way.
  accessible : ∀ w ∈ route.ways, g.isAccessible policy t w = true

variable {g : Network α} {policy : Policy α} {t : Traveller α} {start goal : Ident}

/-- The way of an edge that a traveller can travel can be travelled. -/
theorem isAccessible_of_mem {e : Edge α} (he : e ∈ g.edges)
    (hpass : (e.stepFor policy t).isSome) : g.isAccessible policy t e.way = true := by
  simp only [isAccessible, List.any_eq_true, mem_edgesOf]
  exact ⟨e, ⟨he, rfl⟩, hpass⟩

/-- The route along a path that comes through no node twice follows the path. -/
theorem follows_along {es : List (Edge α)} {c : α} {truncated : Bool} (hne : start ≠ goal)
    (hpath : g.IsPath policy t start goal es c) (hnodup : (Search.nodesOn start es).Nodup) :
    g.Follows policy t start goal (.along start es c truncated) es where
  ne_nil := by
    rintro rfl
    exact hne hpath.leads
  edges := hpath.edges
  leads := hpath.leads
  nodes := rfl
  last := Edge.getLast?_of_leads hpath.leads
  nodup := hnodup
  passable := Edge.isSome_stepFor_of_totalFor hpath.total
  cost := ⟨c, rfl, hpath.total⟩
  ways := collapse_eq_destutter _
  chain := by
    show (collapse _).IsChain _
    rw [collapse_eq_destutter]
    exact List.isChain_destutter _ _
  accessible := by
    intro w hw
    obtain ⟨e, he, rfl⟩ := List.mem_map.mp (mem_of_mem_collapse hw)
    exact isAccessible_of_mem (hpath.edges e he)
      (Edge.isSome_stepFor_of_totalFor hpath.total e he)

end Network

namespace Router

/-- **Every route that is found follows edges of the network**, also when the budget ran out. -/
theorem route_follows (r : Router α) (t : Traveller α) (budget : Budget) {start goal : Ident}
    (h : (r.route t budget start goal).found = true) :
    ∃ es, r.network.Follows r.policy t start goal (r.route t budget start goal) es := by
  have hends : start ≠ goal ∧ r.network.hasNode start = true ∧ r.network.hasNode goal = true := by
    by_contra hno
    have hmissing : r.route t budget start goal = .missing false := by
      unfold route Network.route
      rw [if_pos]
      simp only [Bool.not_eq_true', ← Bool.not_eq_true]
      tauto
    rw [hmissing] at h
    cases h
  obtain ⟨hne, hstart, hgoal⟩ := hends
  have htraced := r.network.traced_search r.policy t budget start goal
  unfold route at h ⊢
  rw [Network.route_eq_ofSearch r.policy t budget hne hstart hgoal] at h ⊢
  generalize (Search.start r.network.nodes.keys start).run (r.network.steps r.policy t) budget
    goal 0 = outcome at h htraced ⊢
  cases hl : outcome.1.labels.get? goal with
  | none =>
      rw [Route.ofSearch_missing hl] at h
      cases h
  | some l =>
      obtain ⟨es, htrail, hroute⟩ := Route.ofSearch_along htraced hl
      rw [hroute]
      exact ⟨es, Network.follows_along hne (Network.isPath_iff.mpr htrail.trail.path)
        htrail.nodup⟩

/-- The search over the triangle finds a route. -/
theorem found_overTriangle :
    (overTriangle.route earlyCar .unlimited (.number 1) (.number 3)).found = true := by
  rcases Network.route_unlimited earlyCar Policy.penalty_standard Network.cost_triangle
      (by decide : Ident.number 1 ≠ .number 3) (by decide) (by decide) with
    ⟨-, hno⟩ | ⟨es, c, hroute, -⟩
  · exact absurd rfl (hno _ 2 Network.isPath_triangle)
  · unfold route overTriangle
    rw [hroute]
    rfl

theorem route_follows_triangle :
    ∃ es, Network.triangle.Follows .standard earlyCar (.number 1) (.number 3)
      (overTriangle.route earlyCar .unlimited (.number 1) (.number 3)) es :=
  route_follows overTriangle earlyCar .unlimited found_overTriangle

end Router

end RoadRules
