import RoadRules.Proofs.Network.Oneway
import RoadRules.Proofs.Network.Restricted
import RoadRules.Proofs.Travel.Trail

set_option autoImplicit false

/-! # Edges that no restriction touches

An edge is affected if one of its restrictions is in force for a traveller, and an edge that is not
affected costs the traveller its own cost. Of the edges that it looks at, a search sees the ends and
the cost, so on a network under other restrictions it takes the same rounds and leaves the same
labels as long as the edges cost the same (`Search.run_under`). If no edge is affected, the routes
are therefore those of the network of the same ways without any restriction, at any costs and within
any budget (`Router.rebuild_unaffected`). -/

namespace RoadRules

open Calendar

variable {α : Type}

/-! ## Searches on a network under other restrictions -/

/-- A label whose entry carries what is looked up under the identifier of its way. -/
def Label.under (restrictionsOf : Ident → List (Restriction α)) (l : Label α) : Label α :=
  { l with entry := l.entry.map (Edge.under restrictionsOf) }

namespace Search

/-- A search among edges that carry what is looked up under the identifiers of their ways. -/
def under (restrictionsOf : Ident → List (Restriction α)) (s : Search α) : Search α :=
  { s with labels := s.labels.mapValues (Label.under restrictionsOf) }

/-- A step whose edge carries what is looked up under the identifier of its way. -/
def stepUnder (restrictionsOf : Ident → List (Restriction α)) (step : Edge α × α) : Edge α × α :=
  (step.1.under restrictionsOf, step.2)

variable [Quantity α] (restrictionsOf : Ident → List (Restriction α))

theorem improves_map_under (c : α) (l : Option (Label α)) :
    improves c (l.map (Label.under restrictionsOf)) = improves c l := by
  cases l with
  | none => rfl
  | some l => rfl

/-- Looking at a step sees nothing of the restrictions that its edge carries. -/
theorem relax_under (c : α) (s : Search α) (step : Edge α × α) :
    relax c (s.under restrictionsOf) (stepUnder restrictionsOf step) =
      (relax c s step).under restrictionsOf := by
  obtain ⟨e, d⟩ := step
  have hlabel : (s.under restrictionsOf).labels.get? e.target =
      (s.labels.get? e.target).map (Label.under restrictionsOf) := OrderedMap.get?_mapValues ..
  have hinsert : (s.under restrictionsOf).labels.insert e.target
      ⟨c + d, some (e.under restrictionsOf)⟩ =
        (s.labels.insert e.target ⟨c + d, some e⟩).mapValues (Label.under restrictionsOf) := by
    rw [OrderedMap.mapValues_insert]
    rfl
  have htest : (e.target ∈ (s.under restrictionsOf).unsettled ∧
      improves (c + d) ((s.under restrictionsOf).labels.get? e.target) = true) ↔
        e.target ∈ s.unsettled ∧ improves (c + d) (s.labels.get? e.target) = true := by
    rw [hlabel, improves_map_under]
    rfl
  by_cases h : e.target ∈ s.unsettled ∧ improves (c + d) (s.labels.get? e.target) = true
  · unfold relax
    rw [if_pos h]
    refine (if_pos (htest.mpr h)).trans ?_
    exact congrArg (fun labels => (⟨enqueue (c + d) e.target s.queue, labels, s.unsettled⟩ :
      Search α)) hinsert
  · unfold relax
    rw [if_neg h]
    exact if_neg fun h' => h (htest.mp h')

theorem foldl_relax_under (c : α) (steps : List (Edge α × α)) (s : Search α) :
    (steps.map (stepUnder restrictionsOf)).foldl (relax c) (s.under restrictionsOf) =
      (steps.foldl (relax c) s).under restrictionsOf := by
  induction steps generalizing s with
  | nil => rfl
  | cons step rest ih => rw [List.map_cons, List.foldl_cons, List.foldl_cons, relax_under, ih]

/-- **A search on a network under other restrictions** takes the same rounds. -/
theorem run_under {steps steps' : Ident → List (Edge α × α)}
    (hsteps : ∀ id, steps' id = (steps id).map (stepUnder restrictionsOf))
    (budget : Budget) (goal : Ident) (spent : Nat) (s : Search α) :
    (s.under restrictionsOf).run steps' budget goal spent =
      ((s.run steps budget goal spent).1.under restrictionsOf,
        (s.run steps budget goal spent).2) := by
  induction spent, s using run.induct steps budget goal with
  | case1 spent s hq =>
      rw [run_empty hq]
      exact run_empty hq
  | case2 spent s c rest hq hid =>
      rw [run_goal hq hid]
      exact run_goal hq hid
  | case3 spent s c id rest hq hid hgoal hallows ih =>
      rw [run_round hq hid hgoal hallows, ← ih, ← foldl_relax_under, ← hsteps]
      exact run_round hq hid hgoal hallows
  | case4 spent s c id rest hq hid hgoal hallows =>
      rw [run_exhausted hq hid hgoal hallows]
      exact run_exhausted hq hid hgoal hallows
  | case5 spent s c id rest hq hid ih =>
      rw [run_skip hq hid, ← ih]
      exact run_skip hq hid

omit [Quantity α] in
/-- Going back from label to label leads along the same edges. -/
theorem trace?_under (labels : OrderedMap Ident (Label α)) (start : Ident) (n : Nat) (id : Ident) :
    trace? (labels.mapValues (Label.under restrictionsOf)) start n id =
      (trace? labels start n id).map (List.map (Edge.under restrictionsOf)) := by
  induction n generalizing id with
  | zero =>
      unfold trace?
      split <;> rfl
  | succ n ih =>
      have hentry : ((labels.mapValues (Label.under restrictionsOf)).get? id).bind Label.entry =
          ((labels.get? id).bind Label.entry).map (Edge.under restrictionsOf) := by
        rw [OrderedMap.get?_mapValues]
        cases labels.get? id <;> rfl
      unfold trace?
      rw [hentry]
      split
      · rfl
      · cases (labels.get? id).bind Label.entry with
        | none => rfl
        | some e =>
            dsimp only [Option.map_some]
            rw [show (e.under restrictionsOf).source = e.source from rfl, ih]
            cases trace? labels start n e.source with
            | none => rfl
            | some es => simp

end Search

/-- A route shows nothing of the restrictions that its edges carry. -/
theorem Route.ofSearch_under [Quantity α] (restrictionsOf : Ident → List (Restriction α))
    (start goal : Ident) (outcome : Search α × Bool) :
    ofSearch start goal (outcome.1.under restrictionsOf, outcome.2) =
      ofSearch start goal outcome := by
  have hsize : (outcome.1.labels.mapValues (Label.under restrictionsOf)).size =
      outcome.1.labels.size := List.length_map ..
  have halong : ∀ (es : List (Edge α)) (c : α) (truncated : Bool),
      along start (es.map (Edge.under restrictionsOf)) c truncated =
        along start es c truncated := by
    intro es c truncated
    unfold along
    rw [List.map_map, List.map_map]
    rfl
  unfold ofSearch
  dsimp only [Search.under]
  rw [hsize, Search.trace?_under, OrderedMap.get?_mapValues]
  cases outcome.1.labels.get? goal with
  | none => rfl
  | some l =>
      cases Search.trace? outcome.1.labels start outcome.1.labels.size goal with
      | none => rfl
      | some es => exact halong es l.cost outcome.2

/-! ## Networks under other restrictions -/

namespace Network

variable {g g' : Network α} {restrictionsOf : Ident → List (Restriction α)}

theorem byTarget_map_under (es : List (Edge α)) :
    byTarget (es.map (Edge.under restrictionsOf)) =
      (byTarget es).map (Edge.under restrictionsOf) := by
  unfold byTarget
  rw [List.map_map, List.map_flatMap]
  simp only [List.filter_map]
  rfl

theorem outEdges_under (hedges : g'.edges = g.edges.map (Edge.under restrictionsOf)) (id : Ident) :
    g'.outEdges id = (g.outEdges id).map (Edge.under restrictionsOf) := by
  rw [g'.inStep.outEdges_eq, g.inStep.outEdges_eq, hedges, List.filter_map, byTarget_map_under]
  rfl

variable [Quantity α] {policy : Policy α} {t : Traveller α}

theorem steps_under (hedges : g'.edges = g.edges.map (Edge.under restrictionsOf))
    (hstep : ∀ e ∈ g.edges, (e.under restrictionsOf).stepFor policy t = e.stepFor policy t)
    (id : Ident) :
    g'.steps policy t id =
      (g.steps policy t id).map (Search.stepUnder restrictionsOf) := by
  unfold steps
  rw [outEdges_under hedges, List.filterMap_map, List.map_filterMap]
  refine List.filterMap_congr fun e he => ?_
  rw [Function.comp_apply, hstep e (mem_outEdges.mp he).1]
  cases e.stepFor policy t <;> rfl

/-- **Routes on a network under other restrictions** are the same as long as the edges cost the
same. -/
theorem route_under (hnodes : g'.nodes = g.nodes)
    (hedges : g'.edges = g.edges.map (Edge.under restrictionsOf))
    (hstep : ∀ e ∈ g.edges, (e.under restrictionsOf).stepFor policy t = e.stepFor policy t)
    (budget : Budget) (start goal : Ident) :
    g'.route policy t budget start goal = g.route policy t budget start goal := by
  unfold route Snapshot.hasNode
  rw [hnodes]
  split
  · rfl
  · have hrun := Search.run_under restrictionsOf (steps_under hedges hstep) budget goal 0
      (Search.start g.nodes.keys start)
    have hstart : (Search.start g.nodes.keys start : Search α).under restrictionsOf =
        Search.start g.nodes.keys start := rfl
    rw [hstart] at hrun
    rw [hrun, Route.ofSearch_under]

/-! ## Affected edges -/

/-- **The affected edges** are those with a restriction that is active at the time and applies to
the vehicle with its own dimensions or those of its profile. -/
theorem mem_affectedEdges_iff {e : Edge α} :
    e ∈ g.affectedEdges t .unlimited ↔ e ∈ g.edges ∧ ∃ x ∈ e.restrictions,
      x.isActiveAt t.time = true ∧ x.appliesTo (some (t.ownWeight.getD t.profile.weight))
        (some (t.ownHeight.getD t.profile.height)) = true := by
  rw [mem_affectedEdges, ← List.isEmpty_eq_false_iff, List.isEmpty_eq_false_iff_exists_mem]
  refine and_congr_right fun _ => exists_congr fun x => ?_
  unfold Traveller.restrictionsInForce Restriction.inForce
  rw [List.mem_filter, Bool.and_eq_true]
  rfl

/-- **An edge that is not affected costs its own cost.** -/
theorem costFor_of_not_mem_affectedEdges {e : Edge α} (he : e ∈ g.edges)
    (hno : e ∉ g.affectedEdges t .unlimited) : e.costFor policy t = some e.cost := by
  have hnone : t.restrictionsInForce e.restrictions = [] := by
    by_contra hsome
    exact hno (mem_affectedEdges.mpr ⟨he, hsome⟩)
  unfold Edge.costFor
  rw [hnone]
  rfl

end Network

namespace Router

/-- **What the affected edges say about costs and routes.** The affected edges of a router are those
with a restriction that is active at the time and applies to the vehicle, each once, in the order of
their numbers. All other edges cost the traveller their own cost, under any policy. And the router
can be rebuilt from the same ways without any restriction: if no edge is affected, it then gives the
traveller the same routes, within any budget. -/
theorem rebuild_unaffected [Geometry α] {r r₁ : Router α} {ways : List (Way α)}
    {source : RestrictionSource α} (hrebuild : r.rebuild ways source = .ok r₁)
    (t : Traveller α) :
    (r₁.network.affectedEdges t .unlimited).Nodup ∧
    Edge.Ascending (r₁.network.affectedEdges t .unlimited) ∧
    (∀ e, e ∈ r₁.network.affectedEdges t .unlimited ↔
      e ∈ r₁.network.edges ∧ ∃ x ∈ e.restrictions, x.isActiveAt t.time = true ∧
        x.appliesTo (some (t.ownWeight.getD t.profile.weight))
          (some (t.ownHeight.getD t.profile.height)) = true) ∧
    (∀ e ∈ r₁.network.edges, e ∉ r₁.network.affectedEdges t .unlimited →
      ∀ policy : Policy α, e.costFor policy t = some e.cost) ∧
    ∃ r₀, r.rebuild ways (.given .empty) = .ok r₀ ∧
      (r₁.network.affectedEdges t .unlimited = [] → ∀ budget start goal,
        r₁.route t budget start goal = r₀.route t budget start goal) := by
  obtain ⟨ix, g, -, hg, rfl⟩ := rebuild_eq_ok_iff.mp hrebuild
  obtain ⟨g₀, hg₀⟩ := Network.exists_ofWays_of_ofWays hg fun _ => []
  obtain ⟨hnodes, hedges⟩ := Network.edges_of_ofWays_ofWays hg hg₀
  have hascending := g.ascending_affectedEdges t
  refine ⟨Edge.nodup_of_ascending hascending, hascending,
    fun e => Network.mem_affectedEdges_iff,
    fun e he hno policy => Network.costFor_of_not_mem_affectedEdges he hno,
    { r with network := g₀, issues := [] }, ?_, fun hnone budget start goal => ?_⟩
  · exact rebuild_eq_ok_iff.mpr ⟨⟨.empty, [], false⟩, g₀, rfl, hg₀, rfl⟩
  · refine (Network.route_under hnodes hedges (fun e he => ?_) budget start goal).symm
    -- Without restrictions the edge is not affected either, and so costs the same.
    have hcost : e.costFor r.policy t = some e.cost :=
      Network.costFor_of_not_mem_affectedEdges he (hnone ▸ List.not_mem_nil)
    unfold Edge.stepFor
    rw [hcost]
    rfl

/-- A car on the first Saturday of the calendar. -/
def saturdayCar : Traveller ℚ := { earlyCar with time := ⟨5 * microsPerDay, by decide⟩ }

theorem rebuild_unaffected_saturday :
    ∃ r₁ r₀ : Router ℚ,
      planarRouter.rebuild [shortRoad [("access:conditional", "no @ (Mo-Fr)")]] .tags = .ok r₁ ∧
      planarRouter.rebuild [shortRoad [("access:conditional", "no @ (Mo-Fr)")]] (.given .empty) =
        .ok r₀ ∧
      (r₁.network.affectedEdges earlyCar .unlimited).map Edge.id = [0, 1] ∧
      r₁.network.affectedEdges saturdayCar .unlimited = [] ∧
      ∀ budget start goal,
        r₁.route saturdayCar budget start goal = r₀.route saturdayCar budget start goal := by
  have hmade : ((planarRouter.rebuild [shortRoad [("access:conditional", "no @ (Mo-Fr)")]]
      .tags).map fun r => ((r.network.affectedEdges earlyCar .unlimited).map Edge.id,
        (r.network.affectedEdges saturdayCar .unlimited).map Edge.id)) = .ok ([0, 1], []) := by
    decide +kernel
  obtain ⟨r₁, hr₁, heq⟩ := map_eq_ok.mp hmade
  obtain ⟨hearly, hsaturday⟩ := Prod.mk.inj heq
  have hnone : r₁.network.affectedEdges saturdayCar .unlimited = [] :=
    List.map_eq_nil_iff.mp hsaturday
  obtain ⟨-, -, -, -, r₀, hr₀, hroute⟩ := rebuild_unaffected hr₁ saturdayCar
  exact ⟨r₁, r₀, hr₁, hr₀, hearly, hnone, hroute hnone⟩

end Router

end RoadRules
