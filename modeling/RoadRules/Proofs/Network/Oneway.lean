import RoadRules.Proofs.Network.Built
import RoadRules.Proofs.Router.Atomic
import RoadRules.Proofs.Router.Known
import RoadRules.Proofs.Travel.Cheapest

set_option autoImplicit false

/-! # One-way rules on a map and on the road

Which edges a way has is settled by its tag when the network is built; a one-way rule in force can
only forbid some of them. The question whether a way is one-way lets the rule go before the tag. So
the answer is that of the edges (`Router.isOneway_eq_false_iff`), except that a rule that states no
direction lifts the tag for the answer and not for the edges. -/

namespace RoadRules

open Calendar

/-- **Whether a way can be travelled both ways**: by some edge along its nodes and some edge
against them. -/
def Network.GoesBothWays {α : Type} [Quantity α] (g : Network α) (policy : Policy α)
    (t : Traveller α) (way : Ident) : Prop :=
  ∀ forward : Bool, ∃ e ∈ g.edgesOf way, e.forward = forward ∧ (e.stepFor policy t).isSome = true

/-- Whether a one-way rule in force states no direction although the tag of the way does. -/
def Restriction.Lifts {α : Type} [Quantity α] (x : Restriction α) (w : Way α) (time : LocalTime) :
    Prop :=
  TagMapper.direction w.scalarTags ≠ .both ∧ x.isActiveAt time = true ∧ x.effect = .oneway .both

/-- A one-way rule of the given direction that concerns vehicles of any weight and height. -/
structure Restriction.IsOnewayRule {α : Type} [Quantity α] (x : Restriction α) (d : Direction) :
    Prop where
  /-- What the rule demands. -/
  effect : x.effect = .oneway d
  /-- No weight is required. -/
  weight : x.weight = none
  /-- No height is required. -/
  height : x.height = none

/-! ## A single one-way rule -/

section Rule

variable {α : Type} [Quantity α] {x : Restriction α} {d : Direction} {policy : Policy α}
  {t : Traveller α} {e : Edge α}

/-- A one-way rule concerns every vehicle. -/
theorem Restriction.IsOnewayRule.appliesTo (hx : x.IsOnewayRule d) (weight height : Option α) :
    x.appliesTo weight height = true := by
  simp [Restriction.appliesTo, admits, hx.weight, hx.height]

/-- A single one-way rule is in force just when it is active. -/
theorem Restriction.IsOnewayRule.inForce (hx : x.IsOnewayRule d) (time : LocalTime)
    (weight height : Option α) :
    Restriction.inForce [x] time weight height = if x.isActiveAt time then [x] else [] := by
  unfold Restriction.inForce
  rw [List.filter_singleton, hx.appliesTo, Bool.and_true, cond_eq_ite]

/-- A one-way rule lifts the direction of the tag when it is active and has none itself. -/
theorem Restriction.IsOnewayRule.lifts_iff (hx : x.IsOnewayRule d) {w : Way α} {time : LocalTime} :
    x.Lifts w time ↔
      TagMapper.direction w.scalarTags ≠ .both ∧ x.isActiveAt time = true ∧ d = .both := by
  unfold Restriction.Lifts
  rw [hx.effect, Effect.oneway.injEq]

/-- A one-way rule costs nothing on the edges that it does not forbid. -/
theorem Edge.costUnder_oneway (hexempt : t.profile.vehicleClass ∉ policy.onewayExempt) :
    e.costUnder policy t.profile [.oneway d] =
      if d.forbids e.forward then none else some e.cost := by
  have hclass : policy.onewayExempt.contains t.profile.vehicleClass = false := by
    simpa using hexempt
  rw [costUnder_eq, List.any_cons, List.any_nil, Bool.or_false, Effect.forbids, hclass,
    Bool.not_false, Bool.true_and]
  rfl

/-- **A single one-way rule** in force keeps a vehicle from the edges whose direction it forbids,
and from no others. -/
theorem Edge.isSome_stepFor_iff (hrestrictions : e.restrictions = [x]) (hx : x.IsOnewayRule d)
    (hexempt : t.profile.vehicleClass ∉ policy.onewayExempt)
    (hcost : Quantity.isInfinite e.cost = false) :
    (e.stepFor policy t).isSome = true ↔
      (x.isActiveAt t.time = true → d.forbids e.forward = false) := by
  have hstep : e.stepFor policy t =
      (if x.isActiveAt t.time = true ∧ d.forbids e.forward = true then none
        else some e.cost).filter fun c => !Quantity.isInfinite c := by
    unfold stepFor costFor Traveller.restrictionsInForce
    rw [hrestrictions, hx.inForce]
    by_cases hactive : x.isActiveAt t.time = true
    · rw [if_pos hactive, List.map_singleton, hx.effect, Edge.costUnder_oneway hexempt]
      simp [hactive]
    · rw [if_neg hactive, if_neg fun h => hactive h.1]
      rfl
  rw [hstep]
  by_cases hforbidden : x.isActiveAt t.time = true ∧ d.forbids e.forward = true
  · simp [hforbidden]
  · rw [if_neg hforbidden]
    simpa [hcost] using hforbidden

end Rule

/-! ## Ways with a single one-way rule -/

section Built

variable {α : Type} [Geometry α] {m : TagMapper} {metric : Metric} {policy : Policy α}
  {restrictionsOf : Ident → List (Restriction α)} {ways : List (Way α)} {g : Network α}
  {w : Way α} {x : Restriction α} {d : Direction} {t : Traveller α}

section OneRule

variable (hw : w.IsOnly ways) (htakes : w.takesPart m = true) (hrule : restrictionsOf w.id = [x])
  (hx : x.IsOnewayRule d)

include hw htakes hrule hx

section Steps

variable (hg : Network.ofWays m metric restrictionsOf ways = .ok g)
  (hexempt : t.profile.vehicleClass ∉ policy.onewayExempt)
  (hcost : ∀ e ∈ g.edgesOf w.id, Quantity.isInfinite e.cost = false)

include hg hexempt hcost

/-- **The directions in which a way can be travelled** are those that its tag permits and that the
rule, if it is in force, does not forbid. -/
theorem Network.exists_step_iff {forward : Bool} :
    (∃ e ∈ g.edgesOf w.id, e.forward = forward ∧ (e.stepFor policy t).isSome = true) ↔
      (TagMapper.direction w.scalarTags).forbids forward = false ∧
        (x.isActiveAt t.time = true → d.forbids forward = false) := by
  have hstep : ∀ e ∈ g.edgesOf w.id, ((e.stepFor policy t).isSome = true ↔
      (x.isActiveAt t.time = true → d.forbids e.forward = false)) := fun e he =>
    Edge.isSome_stepFor_iff (hrule ▸ (Network.of_mem_edgesOf hg hw he).2.1) hx hexempt (hcost e he)
  constructor
  · rintro ⟨e, he, rfl, hsome⟩
    exact ⟨(Network.of_mem_edgesOf hg hw he).2.2, (hstep e he).mp hsome⟩
  · rintro ⟨htag, hactive⟩
    obtain ⟨e, he, rfl⟩ := Network.exists_mem_edgesOf hg hw.mem htakes htag
    exact ⟨e, he, rfl, (hstep e he).mpr hactive⟩

/-- A way goes both ways if neither its tag nor a rule in force says otherwise. -/
theorem Network.goesBothWays_iff :
    g.GoesBothWays policy t w.id ↔
      TagMapper.direction w.scalarTags = .both ∧ (x.isActiveAt t.time = true → d = .both) := by
  unfold Network.GoesBothWays
  simp only [Network.exists_step_iff hw htakes hrule hx hg hexempt hcost, Direction.eq_both_iff]
  constructor
  · exact fun h => ⟨fun forward => (h forward).1, fun hactive forward => (h forward).2 hactive⟩
  · exact fun h forward => ⟨h.1 forward, fun hactive => h.2 hactive forward⟩

end Steps

/-- **The answer to whether a way is one-way** is given by the rule if it is in force, and else by
the tag. -/
theorem Router.isOneway_eq {r : Router α} {time : LocalTime}
    (hg : Network.ofWays m metric restrictionsOf ways = .ok r.network) :
    r.isOneway w.id time =
      ((if x.isActiveAt time then d else TagMapper.direction w.scalarTags) != .both) := by
  rw [isOneway_of_known ((Network.way?_eq hg hw).trans (if_pos htakes)),
    Network.restrictionsOn_eq hg, hrule, hx.inForce]
  by_cases hactive : x.isActiveAt time = true
  · rw [if_pos hactive, if_pos hactive, List.findSome?_singleton, hx.effect]
    rfl
  · rw [if_neg hactive, if_neg hactive]
    rfl

end OneRule

/-- A way that takes no part has no edges and is not one-way. -/
theorem Router.isOneway_of_not_takesPart {r : Router α} {time : LocalTime}
    (hg : Network.ofWays m metric restrictionsOf ways = .ok r.network)
    (hw : w.IsOnly ways) (htakes : ¬ w.takesPart m = true) :
    r.isOneway w.id time = false ∧ r.network.edgesOf w.id = [] := by
  constructor
  · exact isOneway_of_unknown ((Network.way?_eq hg hw).trans (if_neg htakes))
  · rw [List.eq_nil_iff_forall_not_mem]
    exact fun e he => htakes (Network.of_mem_edgesOf hg hw he).1

/-- **The answer to whether a way is one-way and its edges.** Of a way whose only rule is a one-way
rule without bounds: if the way takes part, it is answered not to be one-way just when it can be
travelled both ways, unless the rule lifts the direction of its tag. Then the answer is that the way
is not one-way, but all its edges follow the tag, and they can be travelled. A way that takes no
part has no edges and is answered not to be one-way. -/
theorem Router.isOneway_eq_false_iff {r r' : Router α} {source : RestrictionSource α}
    {ix : RestrictionIndex α} (hix : source.resolve ways = .ok ix)
    (hrebuild : r.rebuild ways source = .ok r') (hw : w.IsOnly ways)
    (hrule : ix.restrictionsFor w.id = [x]) (hx : x.IsOnewayRule d)
    (hcost : ∀ e ∈ r'.network.edgesOf w.id, Quantity.isInfinite e.cost = false)
    (hexempt : t.profile.vehicleClass ∉ r.policy.onewayExempt) :
    (w.takesPart r.mapper = true → ¬ x.Lifts w t.time →
      (r'.isOneway w.id t.time = false ↔ r'.network.GoesBothWays r'.policy t w.id)) ∧
    (w.takesPart r.mapper = true → x.Lifts w t.time →
      r'.isOneway w.id t.time = false ∧ ¬ r'.network.GoesBothWays r'.policy t w.id ∧
        ∀ forward, (∃ e ∈ r'.network.edgesOf w.id, e.forward = forward ∧
          (e.stepFor r'.policy t).isSome = true) ↔
            (TagMapper.direction w.scalarTags).forbids forward = false) ∧
    (¬ w.takesPart r.mapper = true →
      r'.isOneway w.id t.time = false ∧ r'.network.edgesOf w.id = []) := by
  obtain ⟨hpolicy, hg⟩ := Router.rebuild_eq_ok hix hrebuild
  rw [hpolicy, hx.lifts_iff]
  have hanswer : w.takesPart r.mapper = true → (r'.isOneway w.id t.time = false ↔
      (if x.isActiveAt t.time then d else TagMapper.direction w.scalarTags) = .both) := by
    intro htakes
    rw [Router.isOneway_eq hw htakes hrule hx hg, bne_eq_false_iff_eq]
  refine ⟨fun htakes hno => ?_, fun htakes hyes => ?_, Router.isOneway_of_not_takesPart hg hw⟩
  · rw [hanswer htakes, Network.goesBothWays_iff hw htakes hrule hx hg hexempt hcost]
    by_cases hactive : x.isActiveAt t.time = true
    · rw [if_pos hactive]
      -- Not lifted, so the rule says `both` only if the tag does.
      constructor
      · intro hd
        refine ⟨?_, fun _ => hd⟩
        by_contra htag
        exact hno ⟨htag, hactive, hd⟩
      · exact fun h => h.2 hactive
    · rw [if_neg hactive]
      exact ⟨fun htag => ⟨htag, fun h => absurd h hactive⟩, And.left⟩
  · obtain ⟨htag, hactive, rfl⟩ := hyes
    refine ⟨?_, fun hgoes => ?_, fun forward => ?_⟩
    · rw [hanswer htakes, if_pos hactive]
    · exact htag ((Network.goesBothWays_iff hw htakes hrule hx hg hexempt hcost).mp hgoes).1
    · rw [Network.exists_step_iff hw htakes hrule hx hg hexempt hcost, and_iff_left]
      exact fun _ => Direction.eq_both_iff.mp rfl forward

end Built

/-! ## A road with a rule for weekdays -/

/-- A road of two nodes with the given tags, besides that for its category. -/
def shortRoad (tags : List (Text × Text)) : Way ℚ where
  id := .number 1
  tags := .ofList (("highway", "road") :: tags)
  nodes := [⟨.number 1, 0, 0⟩, ⟨.number 2, 1, 0⟩]

/-- A one-way rule for weekdays, with the value that it has in a tag. -/
def weekdayRule (value raw : Text) : Restriction ℚ where
  key := "oneway:conditional"
  value := value
  windows := [⟨.range .monday .friday, .empty, none⟩]
  weight := none
  height := none
  raw := raw

/-- A router that measures in the plane. -/
def planarRouter : Router ℚ := .ofMapper .standard { Policy.standard with metric := .euclidean }

/-- A road that is one-way on weekdays. -/
def weekdayOneway : Way ℚ := shortRoad [("oneway:conditional", "yes @ (Mo-Fr)")]

theorem Router.isOneway_eq_false_iff_weekday :
    ∃ r' : Router ℚ, planarRouter.rebuild [weekdayOneway] .tags = .ok r' ∧
      (r'.isOneway (.number 1) earlyCar.time = false ↔
        r'.network.GoesBothWays r'.policy earlyCar (.number 1)) := by
  have hrule : ((RestrictionSource.tags.resolve [weekdayOneway]).map
      fun ix => ix.restrictionsFor (.number 1)) =
        .ok [weekdayRule "yes" "yes @ (Mo-Fr)"] := by decide +kernel
  obtain ⟨ix, hix, hrule⟩ := map_eq_ok.mp hrule
  have hmade : (planarRouter.rebuild [weekdayOneway] .tags).isOk = true := by decide +kernel
  obtain ⟨r', hr'⟩ := exists_eq_ok hmade
  have hanswer := Router.isOneway_eq_false_iff (w := weekdayOneway) (d := .forward) (t := earlyCar)
    hix hr' (by simp [Way.IsOnly]) hrule ⟨by decide +kernel, rfl, rfl⟩ (fun _ _ => rfl)
    (by decide +kernel)
  exact ⟨r', hr', hanswer.1 (by decide +kernel) fun h => by
    exact absurd h.1 (by decide +kernel)⟩

/-- A road that is one-way except on weekdays. -/
def weekdayTwoWay : Way ℚ := shortRoad [("oneway", "yes"), ("oneway:conditional", "no @ (Mo-Fr)")]

/-- **The answer to whether a way is one-way is not always that of its edges.** -/
theorem Router.isOneway_lifted :
    ¬ ∀ (r r' : Router ℚ) (ways : List (Way ℚ)) (source : RestrictionSource ℚ)
        (ix : RestrictionIndex ℚ) (w : Way ℚ) (x : Restriction ℚ) (d : Direction)
        (t : Traveller ℚ), source.resolve ways = .ok ix → r.rebuild ways source = .ok r' →
      w.IsOnly ways → w.takesPart r.mapper = true →
      ix.restrictionsFor w.id = [x] → x.IsOnewayRule d →
      (∀ e ∈ r'.network.edgesOf w.id, Quantity.isInfinite e.cost = false) →
      t.profile.vehicleClass ∉ r.policy.onewayExempt →
      (r'.isOneway w.id t.time = false ↔ r'.network.GoesBothWays r'.policy t w.id) := by
  intro hall
  have hrule : ((RestrictionSource.tags.resolve [weekdayTwoWay]).map
      fun ix => ix.restrictionsFor (.number 1)) =
        .ok [weekdayRule "no" "no @ (Mo-Fr)"] := by decide +kernel
  obtain ⟨ix, hix, hrule⟩ := map_eq_ok.mp hrule
  have hmade : ((planarRouter.rebuild [weekdayTwoWay] .tags).map fun r' =>
      (r'.isOneway (.number 1) earlyCar.time,
        (r'.network.edgesOf (.number 1)).map fun e => e.forward)) = .ok (false, [true]) := by
    decide +kernel
  obtain ⟨r', hr', hmade⟩ := map_eq_ok.mp hmade
  obtain ⟨hanswer, hedges⟩ := Prod.mk.inj hmade
  have hboth := (hall planarRouter r' [weekdayTwoWay] .tags ix weekdayTwoWay _ .both earlyCar hix
    hr' (by simp [Way.IsOnly]) (by decide +kernel) hrule ⟨by decide +kernel, rfl, rfl⟩
    (fun _ _ => rfl) (by decide +kernel)).mp hanswer
  obtain ⟨e, he, hbackward, -⟩ := hboth false
  have hmem : e.forward ∈ [true] := hedges ▸ List.mem_map_of_mem he
  rw [hbackward] at hmem
  revert hmem
  decide

end RoadRules
