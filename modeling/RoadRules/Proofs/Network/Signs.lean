import RoadRules.Proofs.Network.Oneway
import RoadRules.Proofs.Network.Reference
import RoadRules.Proofs.Number.Signed
import RoadRules.Proofs.Travel.Harder

set_option autoImplicit false

/-! # The signs of costs

An edge costs its length divided by the factor of its category, and a configuration may set any
factor but zero. So the costs of a network are not negative just when no factor in use is undefined
or makes a length negative (`Network.costs_nonneg_iff`). Travel does not change the sign of a cost:
the penalty of a policy and the slowing of a vehicle are positive, and only an infinite penalty on
an edge that costs nothing gives a cost that is undefined. -/

namespace RoadRules

open SignedQuantity

/-! ## Travel -/

section Travel

variable {α : Type} [Quantity α]

/-- Whether a restriction in force deters a traveller from an edge without forbidding it. -/
def Edge.Deters (e : Edge α) (t : Traveller α) : Prop :=
  ∃ x ∈ t.restrictionsInForce e.restrictions, x.effect.deters = true

variable [SignedQuantity α] {policy : Policy α} {p : Profile α} {c d : α} {es : List (Effect α)}

namespace Edge

/-- A positive penalty keeps the sign of a cost, unless it is infinite and multiplies zero. -/
theorem penalized_nonneg_iff (hpenalty : Quantity.zero < policy.penalty) :
    Quantity.zero ≤ penalized policy c es ↔ Quantity.zero ≤ c ∧
      ¬ (Quantity.isInfinite policy.penalty = true ∧ Quantity.isZero c = true ∧
        ∃ x ∈ es, x.deters = true) := by
  induction es generalizing c with
  | nil => simp [penalized]
  | cons x rest ih =>
      have hstep : penalized policy c (x :: rest) =
          penalized policy (if x.deters then c * policy.penalty else c) rest := rfl
      rw [hstep]
      cases hx : x.deters with
      | false =>
          rw [if_neg Bool.false_ne_true, ih]
          simp [hx]
      | true =>
          -- After the first multiplication an infinite penalty finds no zero.
          rw [if_pos rfl, ih, nonneg_mul_iff hpenalty, isZero_mul_iff hpenalty]
          cases Quantity.isInfinite policy.penalty <;> simp [hx]

/-- Slowing keeps the sign of a cost. -/
theorem slowed_nonneg_iff {limit : Option α} (hspeed : Quantity.isInfinite p.speed = false)
    (hlimit : ∀ v, limit = some v → ¬ v ≤ Quantity.zero) :
    Quantity.zero ≤ slowed p c limit ↔ Quantity.zero ≤ c := by
  cases limit with
  | none => exact Iff.rfl
  | some v =>
      unfold slowed
      dsimp only
      split
      · rename_i hlt
        obtain ⟨hpos, hfinite⟩ := pos_div (hlimit v rfl) hlt hspeed
        rw [nonneg_mul_iff hpos, hfinite]
        simp
      · exact Iff.rfl

/-- **The sign of what an edge costs a traveller** is that of its own cost, unless the penalty of
the policy is infinite and a restriction in force multiplies zero by it. -/
theorem costFor_nonneg_iff {t : Traveller α} {e : Edge α}
    (hpenalty : Quantity.zero < policy.penalty)
    (hspeed : Quantity.isInfinite t.profile.speed = false)
    (h : e.costFor policy t = some d) :
    Quantity.zero ≤ d ↔ Quantity.zero ≤ e.cost ∧
      ¬ (Quantity.isInfinite policy.penalty = true ∧ Quantity.isZero e.cost = true ∧
        e.Deters t) := by
  rw [costFor, costUnder_eq] at h
  split at h
  · cases h
  · cases h
    rw [slowed_nonneg_iff hspeed fun v hv =>
      Restriction.not_le_zero_of_mem_limits _ v (mem_of_leastOf? hv), penalized_nonneg_iff hpenalty]
    simp only [List.mem_map, exists_exists_and_eq_and, Deters]

end Edge

/-- The speed of a named profile is not infinite. -/
theorem Profile.isInfinite_speed (c : VehicleClass) :
    Quantity.isInfinite (ofClass c : Profile α).speed = false := by
  cases c <;> exact isInfinite_ofNat _

end Travel

/-! ## Networks -/

section Networks

variable {α : Type} [Geometry α] {m : TagMapper} {metric : Metric} {ws : List (Way α)}
  {restrictionsOf : Ident → List (Restriction α)} {g : Network α} {w : Way α} {l : Link α}

/-- Whether the lengths of the segments of a way are numbers that are not negative. -/
def Way.HasLengths (w : Way α) (metric : Metric) : Prop :=
  ∀ s ∈ w.segments, ∀ length, Geometry.distance metric s.1 s.2 = .ok length →
    Quantity.zero ≤ length ∧ Quantity.isInfinite length = false

/-- **Whether a way is rated wrongly**: by a factor that is undefined, or by one that is negative,
but not infinite, although some segment has a positive length. -/
def Way.IsMisrated (w : Way α) (m : TagMapper) (metric : Metric) : Prop :=
  ∃ factor : α, m.speedFactor (TagMapper.category w.scalarTags) = .ok factor ∧
    (¬ factor ≤ factor ∨ (factor < Quantity.zero ∧ Quantity.isInfinite factor = false ∧
      ∃ s ∈ w.segments, ∃ length, Geometry.distance metric s.1 s.2 = .ok length ∧
        Quantity.zero < length))

namespace Measures

variable (x : Measures m metric ws)

/-- The links of a segment cost its length divided by the factor of the way. -/
theorem cost_of_mem_linksOn {s : Node α × Node α} (hl : l ∈ x.linksOn restrictionsOf w s) :
    l.cost = x.length s / x.factor w := by
  unfold linksOn at hl
  rcases List.mem_append.mp hl with hl | hl
  · split at hl
    · cases hl
    · cases List.mem_singleton.mp hl
      rfl
  · split at hl
    · cases hl
    · cases List.mem_singleton.mp hl
      rfl

/-- **The costs of a network** are the lengths of the segments, each divided by the factor of its
way. -/
theorem forall_cost_iff (hg : Network.ofWays m metric restrictionsOf ws = .ok g) {P : α → Prop} :
    (∀ e ∈ g.edges, P e.cost) ↔
      ∀ w ∈ ws, w.takesPart m = true → ∀ s ∈ w.segments, P (x.length s / x.factor w) := by
  constructor
  · intro hall w hw htakes s hs
    obtain ⟨l, hl⟩ := List.exists_mem_of_ne_nil _ (x.linksOn_ne_nil restrictionsOf w s)
    obtain ⟨e, he, rfl⟩ := (Network.exists_edge_iff x hg).mpr ⟨w, hw, htakes, s, hs, hl⟩
    rw [← x.cost_of_mem_linksOn hl]
    exact hall e he
  · intro hall e he
    obtain ⟨w, hw, htakes, s, hs, hl⟩ := (Network.exists_edge_iff x hg).mp ⟨e, he, rfl⟩
    rw [x.cost_of_mem_linksOn hl]
    exact hall w hw htakes s hs

/-- A way is rated wrongly just when one of its costs is negative or undefined. -/
theorem isMisrated_iff [SignedQuantity α] (hw : w ∈ ws) (htakes : w.takesPart m = true)
    (hlengths : w.HasLengths metric) :
    w.IsMisrated m metric ↔ ∃ s ∈ w.segments, ¬ Quantity.zero ≤ x.length s / x.factor w := by
  have hfactor := x.factor_eq w hw htakes
  -- The sign of the cost of each segment.
  have hsign : ∀ s ∈ w.segments, (¬ Quantity.zero ≤ x.length s / x.factor w ↔
      ¬ x.factor w ≤ x.factor w ∨ (x.factor w < Quantity.zero ∧
        Quantity.isInfinite (x.factor w) = false ∧ Quantity.zero < x.length s)) := by
    intro s hs
    obtain ⟨hlength, hfinite⟩ := hlengths s hs _ (x.length_eq w hw htakes s hs)
    rw [nonneg_div_iff hlength hfinite (x.factor_ne_zero w hw htakes), not_and_or, not_not]
  constructor
  · rintro ⟨factor, heq, hwrong⟩
    obtain rfl : x.factor w = factor := Except.ok.inj (hfactor.symm.trans heq)
    rcases hwrong with hundefined | ⟨hneg, hfinite, s, hs, length, hdistance, hpos⟩
    · obtain ⟨s, hs⟩ := List.exists_mem_of_ne_nil _
        (Way.segments_ne_nil (Way.length_of_takesPart htakes))
      exact ⟨s, hs, (hsign s hs).mpr (Or.inl hundefined)⟩
    · obtain rfl : x.length s = length :=
        Except.ok.inj ((x.length_eq w hw htakes s hs).symm.trans hdistance)
      exact ⟨s, hs, (hsign s hs).mpr (Or.inr ⟨hneg, hfinite, hpos⟩)⟩
  · rintro ⟨s, hs, hcost⟩
    refine ⟨x.factor w, hfactor, ((hsign s hs).mp hcost).imp_right ?_⟩
    exact fun ⟨hneg, hfinite, hpos⟩ =>
      ⟨hneg, hfinite, s, hs, x.length s, x.length_eq w hw htakes s hs, hpos⟩

end Measures

/-- **The signs of costs.** The edges of a network cost no less than zero just when no way that
takes part is rated wrongly. What an edge costs a vehicle of a named profile, if it is passable, is
not negative just when its own cost is not, except that an infinite penalty makes the cost of an
edge undefined that costs nothing and that a restriction in force deters from. -/
theorem Network.costs_nonneg_iff [SignedQuantity α] {policy : Policy α}
    (hg : ofWays m policy.metric restrictionsOf ws = .ok g)
    (hpenalty : Quantity.zero < policy.penalty)
    (hlengths : ∀ w ∈ ws, w.takesPart m = true → w.HasLengths policy.metric) :
    ((∀ e ∈ g.edges, Quantity.zero ≤ e.cost) ↔
      ∀ w ∈ ws, w.takesPart m = true → ¬ w.IsMisrated m policy.metric) ∧
    ∀ e ∈ g.edges, ∀ (t : Traveller α) (c : VehicleClass) (d : α), t.profile = .ofClass c →
      e.costFor policy t = some d → (Quantity.zero ≤ d ↔ Quantity.zero ≤ e.cost ∧
        ¬ (Quantity.isInfinite policy.penalty = true ∧ Quantity.isZero e.cost = true ∧
          e.Deters t)) := by
  obtain ⟨x⟩ := nonempty_measures hg
  constructor
  · rw [x.forall_cost_iff hg]
    refine forall_congr' fun w => forall_congr' fun hw => forall_congr' fun htakes => ?_
    rw [x.isMisrated_iff hw htakes (hlengths w hw htakes)]
    push Not
    exact Iff.rfl
  · intro e _ t c d hprofile hd
    exact Edge.costFor_nonneg_iff hpenalty (hprofile ▸ Profile.isInfinite_speed c) hd

end Networks

/-- A mapper with a factor for roads. -/
def ratedMapper (factor : Scalar) : TagMapper where
  config := .object [("highway", .object [("road", .object [("speed_factor", .scalar factor)])])]
  excluded := TagMapper.standardExcluded

/-- A road between two places. -/
def extendedRoad : Way Extended where
  id := .number 1
  tags := .ofList [("highway", "road")]
  nodes := [⟨.number 1, .finite 0, .finite 0⟩, ⟨.number 2, .finite 1, .finite 0⟩]

/-- A policy that measures in the plane. -/
def extendedPolicy : Policy Extended := { Policy.standard with metric := .euclidean }

theorem Network.costs_nonneg_iff_undefined :
    ∃ g : Network Extended, ofWays (ratedMapper (.text "nan")) extendedPolicy.metric (fun _ => [])
      [extendedRoad] = .ok g ∧ ¬ ∀ e ∈ g.edges, Quantity.zero ≤ e.cost := by
  have hmade : (ofWays (ratedMapper (.text "nan")) extendedPolicy.metric (fun _ => [])
      [extendedRoad]).isOk = true := by decide +kernel
  obtain ⟨g, hg⟩ := exists_eq_ok hmade
  have hsigns := costs_nonneg_iff hg (by decide +kernel) fun w hw _ s hs length hlength => by
    cases List.mem_singleton.mp hw
    cases List.mem_singleton.mp hs
    cases hlength
    decide +kernel
  refine ⟨g, hg, fun hall => ?_⟩
  exact hsigns.1.mp hall extendedRoad (List.mem_singleton_self _) (by decide +kernel)
    ⟨.undefined, by rfl, Or.inl Extended.not_le_undefined⟩

/-- A mapper that divides the lengths of roads by a negative number. -/
def negativeMapper : TagMapper := ratedMapper (.integer (-2))

/-- **A cost can be negative**: nothing is asked of the factors in a configuration. -/
theorem Network.costs_negative :
    ¬ ∀ (config : Json) (m : TagMapper) (policy : Policy ℚ)
        (restrictionsOf : Ident → List (Restriction ℚ)) (ws : List (Way ℚ)) (g : Network ℚ),
      TagMapper.ofConfig (some config) none = .ok m →
      ofWays m policy.metric restrictionsOf ws = .ok g → Quantity.zero < policy.penalty →
      (∀ w ∈ ws, w.takesPart m = true → w.HasLengths policy.metric) →
      (∀ e ∈ g.edges, Quantity.zero ≤ e.cost) ∧
        ∀ e ∈ g.edges, ∀ (t : Traveller ℚ) (c : VehicleClass) (d : ℚ), t.profile = .ofClass c →
          e.costFor policy t = some d → Quantity.zero ≤ d := by
  intro hall
  have hmade : ((ofWays negativeMapper planarRouter.policy.metric (fun _ => [])
      [shortRoad []]).map fun g => g.edges.map fun e => e.cost) = .ok [-1 / 2, -1 / 2] := by
    decide +kernel
  obtain ⟨g, hg, hcosts⟩ := map_eq_ok.mp hmade
  have hlengths : ∀ w ∈ [shortRoad []], w.takesPart negativeMapper = true →
      w.HasLengths planarRouter.policy.metric := by
    intro w hw _ s hs length hlength
    cases List.mem_singleton.mp hw
    cases List.mem_singleton.mp hs
    cases hlength
    decide +kernel
  obtain ⟨hnonneg, -⟩ := hall negativeMapper.config _ _ _ _ g rfl hg (by decide +kernel) hlengths
  have hmem : (-1 / 2 : ℚ) ∈ g.edges.map fun e => e.cost := hcosts ▸ List.mem_cons_self
  obtain ⟨e, he, hcost⟩ := List.mem_map.mp hmem
  have hcost' := hnonneg e he
  rw [hcost] at hcost'
  revert hcost'
  decide +kernel

end RoadRules
