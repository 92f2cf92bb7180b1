import RoadRules.Proofs.Network.Oneway
import RoadRules.Proofs.Network.Reference
import RoadRules.Proofs.Number.Monotone
import RoadRules.Proofs.Travel.Compared

set_option autoImplicit false

/-! # Two-way networks

A way whose tag permits both directions has its links in pairs, one the other way round of the
other. Restrictions tell the two apart only if they are one-way rules, and not even these for
vehicles that are exempt. Otherwise a path can be travelled back at the same cost, provided that
sums are exact, since the steps are added in another order. So there is a route back for every
route, at the same cost (`Router.rebuild_symmetric`). -/

namespace RoadRules

variable {α : Type}

/-! ## Edges the other way round -/

/-- A link travelled the other way. -/
def Link.reversed (l : Link α) : Link α :=
  { l with source := l.target, target := l.source, forward := !l.forward }

/-- **A network that can be travelled both ways**: it has each of its edges the other way round
too. -/
def Network.IsTwoWay (g : Network α) : Prop :=
  ∀ e ∈ g.edges, ∃ f ∈ g.edges, f.toLink = e.toLink.reversed

section Cost

variable [Quantity α] {policy : Policy α} {p : Profile α} {t : Traveller α}

omit [Quantity α] in
/-- Only a one-way rule tells the directions apart, and only for vehicles that are not exempt. -/
theorem Effect.forbids_not {x : Effect α}
    (hfree : p.vehicleClass ∈ policy.onewayExempt ∨ x.direction? = none) (forward : Bool) :
    x.forbids policy p (!forward) = x.forbids policy p forward := by
  cases x with
  | access subject value => rfl
  | speed limit => rfl
  | other subject value => rfl
  | oneway direction =>
      have hexempt : p.vehicleClass ∈ policy.onewayExempt := hfree.resolve_right nofun
      simp [forbids, hexempt]

theorem Edge.costUnder_reversed {e f : Edge α} {xs : List (Effect α)}
    (h : f.toLink = e.toLink.reversed)
    (hfree : p.vehicleClass ∈ policy.onewayExempt ∨ ∀ x ∈ xs, x.direction? = none) :
    f.costUnder policy p xs = e.costUnder policy p xs := by
  have hcost : f.cost = e.cost := by
    rw [h]
    rfl
  have hforward : f.forward = !e.forward := by
    rw [h]
    rfl
  have hforbids : (xs.any fun x => x.forbids policy p f.forward) =
      xs.any fun x => x.forbids policy p e.forward := by
    rw [Bool.eq_iff_iff, List.any_eq_true, List.any_eq_true, hforward]
    refine exists_congr fun x => and_congr_right fun hx => ?_
    rw [Effect.forbids_not (hfree.imp_right fun hno => hno x hx)]
  rw [costUnder_eq, costUnder_eq, hforbids, hcost]

/-- **An edge the other way round costs the same** if no one-way rule concerns the traveller. -/
theorem Edge.stepFor_reversed {e f : Edge α} (h : f.toLink = e.toLink.reversed)
    (hfree : t.profile.vehicleClass ∈ policy.onewayExempt ∨
      ∀ x ∈ e.restrictions, x.effect.direction? = none) :
    f.stepFor policy t = e.stepFor policy t := by
  have hcarried : f.restrictions = e.restrictions := by
    rw [h]
    rfl
  unfold stepFor costFor
  rw [hcarried, costUnder_reversed h]
  refine hfree.imp_right fun hno y hy => ?_
  obtain ⟨x, hx, rfl⟩ := List.mem_map.mp hy
  exact hno x (List.mem_filter.mp hx).1

end Cost

/-! ## Paths the other way round -/

namespace Search.Path

variable [Quantity α] [ExactQuantity α] {steps : Ident → List (Edge α × α)} {a b : Ident}
  {es : List (Edge α)} {c : α}

/-- One more step at the start of a path, whose cost can be added last. -/
theorem cons {e : Edge α} {d : α} (hstep : (e, d) ∈ steps a) (h : Path steps e.target es b c) :
    Path steps a (e :: es) b (c + d) := by
  induction h with
  | stay => exact .step .stay hstep
  | step _ hlast ih =>
      rw [ExactQuantity.add_right_comm]
      exact ih.step hlast

/-- **A path back**, if each step can be taken back at the same cost. -/
theorem exists_reversed
    (hback : ∀ id e d, (e, d) ∈ steps id → ∃ f, (f, d) ∈ steps e.target ∧ f.target = id)
    (h : Path steps a es b c) : ∃ fs, Path steps b fs a c := by
  induction h with
  | stay => exact ⟨[], .stay⟩
  | step _ hstep ih =>
      obtain ⟨fs, hfs⟩ := ih
      obtain ⟨f, hf, rfl⟩ := hback _ _ _ hstep
      exact ⟨f :: fs, cons hf hfs⟩

end Search.Path

namespace Network

variable [Quantity α] [ExactQuantity α] {g : Network α} {policy : Policy α} {t : Traveller α}

section Back

variable (h : g.IsTwoWay) (hfree : t.profile.vehicleClass ∈ policy.onewayExempt ∨
  ∀ e ∈ g.edges, ∀ x ∈ e.restrictions, x.effect.direction? = none)

include h hfree

theorem IsTwoWay.exists_isPath {a b : Ident} {es : List (Edge α)} {c : α}
    (hpath : g.IsPath policy t a b es c) : ∃ fs, g.IsPath policy t b a fs c := by
  simp only [isPath_iff] at hpath ⊢
  refine hpath.exists_reversed fun id e d hstep => ?_
  obtain ⟨he, hsource, hd⟩ := mem_steps.mp hstep
  obtain ⟨f, hf, hlink⟩ := h e he
  refine ⟨f, mem_steps.mpr ⟨hf, congrArg Link.source hlink, ?_⟩,
    (congrArg Link.target hlink).trans hsource⟩
  rw [Edge.stepFor_reversed hlink (hfree.imp_right fun hno => hno e he), hd]

theorem IsTwoWay.route_matches (hpenalty : Quantity.zero < policy.penalty)
    (hcost : ∀ e ∈ g.edges, Quantity.zero ≤ e.cost) (a b : Ident) :
    (g.route policy t .unlimited a b).Matches (g.route policy t .unlimited b a) :=
  matches_of_paths hpenalty hcost hcost eq_comm (fun _ _ hpath => h.exists_isPath hfree hpath)
    fun _ _ hpath => h.exists_isPath hfree hpath

end Back

end Network

/-! ## Networks of two-way ways -/

section Built

variable [Geometry α] {m : TagMapper} {metric : Metric} {ws : List (Way α)}
  {restrictionsOf : Ident → List (Restriction α)} {g : Network α}

/-- A segment of a way without a direction has each of its links the other way round too. -/
theorem Measures.reversed_mem_linksOn (x : Measures m metric ws) {w : Way α}
    {s : Node α × Node α} {l : Link α} (hboth : TagMapper.direction w.scalarTags = .both)
    (hl : l ∈ x.linksOn restrictionsOf w s) : l.reversed ∈ x.linksOn restrictionsOf w s := by
  unfold linksOn at hl ⊢
  rw [hboth] at hl ⊢
  rcases List.mem_append.mp hl with hl | hl
  · cases List.mem_singleton.mp hl
    exact List.mem_append_right _ (List.mem_singleton_self _)
  · cases List.mem_singleton.mp hl
    exact List.mem_append_left _ (List.mem_singleton_self _)

/-- **The network of ways without a direction** can be travelled both ways. -/
theorem Network.isTwoWay_of_ofWays (h : ofWays m metric restrictionsOf ws = .ok g)
    (hboth : ∀ w ∈ ws, TagMapper.direction w.scalarTags = .both) : g.IsTwoWay := by
  intro e he
  obtain ⟨x⟩ := nonempty_measures h
  obtain ⟨w, hw, htakes, s, hs, hl⟩ := (exists_edge_iff x h).mp ⟨e, he, rfl⟩
  have hreversed := x.reversed_mem_linksOn (hboth w hw) hl
  exact (exists_edge_iff x h).mpr ⟨w, hw, htakes, s, hs, hreversed⟩

end Built

namespace Router

/-- **Two-way networks are symmetric.** Let a router be rebuilt from ways whose tags permit both
directions, so that no edge costs less than zero, and let the traveller be exempt from one-way rules
or no edge carry one. Then without a budget a route is found just when the route back is found, and
both have the same cost. -/
theorem rebuild_symmetric [Geometry α] [ExactQuantity α] {r r' : Router α} {ways : List (Way α)}
    {source : RestrictionSource α} {t : Traveller α} (hrebuild : r.rebuild ways source = .ok r')
    (hboth : ∀ w ∈ ways, TagMapper.direction w.scalarTags = .both)
    (hpenalty : Quantity.zero < r.policy.penalty)
    (hcost : ∀ e ∈ r'.network.edges, Quantity.zero ≤ e.cost)
    (hfree : t.profile.vehicleClass ∈ r.policy.onewayExempt ∨
      ∀ e ∈ r'.network.edges, ∀ x ∈ e.restrictions, x.effect.direction? = none) (a b : Ident) :
    ((r'.route t .unlimited a b).found = true ↔ (r'.route t .unlimited b a).found = true) ∧
      (r'.route t .unlimited a b).cost = (r'.route t .unlimited b a).cost := by
  obtain ⟨ix, g, -, hg, rfl⟩ := rebuild_eq_ok_iff.mp hrebuild
  have hmatches : (g.route r.policy t .unlimited a b).Matches (g.route r.policy t .unlimited b a) :=
    (Network.isTwoWay_of_ofWays hg hboth).route_matches hfree hpenalty hcost a b
  exact ⟨Bool.eq_iff_iff.mp hmatches.found, hmatches.cost_eq fun _ _ => ExactQuantity.le_antisymm⟩

/-- Two roads between two nodes, one of them by a third node, with a rule for weekends. -/
def twoWayRoads : List (Way ℚ) :=
  [shortRoad [("maxspeed:conditional", "20 @ (Sa,Su)")],
    ⟨.number 2, .ofList [("highway", "residential")],
      [⟨.number 2, 1, 0⟩, ⟨.number 3, 2, 0⟩, ⟨.number 1, 0, 0⟩]⟩]

theorem rebuild_symmetric_roads :
    ∃ r' : Router ℚ, planarRouter.rebuild twoWayRoads .tags = .ok r' ∧ ∀ a b,
      ((r'.route earlyCar .unlimited a b).found = true ↔
        (r'.route earlyCar .unlimited b a).found = true) ∧
      (r'.route earlyCar .unlimited a b).cost = (r'.route earlyCar .unlimited b a).cost := by
  have hmade : ((planarRouter.rebuild twoWayRoads .tags).map fun r =>
      r.network.edges.all fun e => decide (Quantity.zero ≤ e.cost) &&
        e.restrictions.all fun x => x.effect.direction?.isNone) = .ok true := by decide +kernel
  obtain ⟨r', hr', hedges⟩ := map_eq_ok.mp hmade
  have hedge : ∀ e ∈ r'.network.edges, Quantity.zero ≤ e.cost ∧
      ∀ x ∈ e.restrictions, x.effect.direction? = none := by
    simpa using hedges
  exact ⟨r', hr', rebuild_symmetric hr' (by decide +kernel) Policy.penalty_standard
    (fun e he => (hedge e he).1) (Or.inr fun e he => (hedge e he).2)⟩

end Router

end RoadRules
