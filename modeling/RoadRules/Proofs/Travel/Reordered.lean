import RoadRules.Proofs.Network.Oneway
import RoadRules.Proofs.Network.Reference
import RoadRules.Proofs.Survey.Account
import RoadRules.Proofs.Travel.Compared

set_option autoImplicit false

/-! # The order of the ways

A network of the same ways in another order numbers its edges otherwise and comes to its nodes in
another order, so that a search takes other steps and may end with another route. But the links are
the same, and the same is looked up under each identifier as long as none is repeated. So the
answers agree: routes are worth the same, and each way is answered for alike
(`Router.rebuild_reordered`). -/

namespace RoadRules

/-! ## Surveys -/

section Survey

variable {α : Type} [Quantity α] {ways ways' : List (Way α)} {keys : List Text}
  {ix : RestrictionIndex α}

theorem statedBy_perm (hperm : ways.Perm ways') :
    (statedBy ways keys).Perm (statedBy ways' keys) :=
  (hperm.filter _).map _

/-- **A survey in another order** finds the same under each identifier. -/
theorem RestrictionIndex.exists_ofWays_of_perm (hids : (ways.map Way.id).Nodup)
    (hperm : ways.Perm ways') (h : ofWays ways keys .unlimited = .ok ix) :
    ∃ ix', ofWays ways' keys .unlimited = .ok ix' ∧
      ix'.restrictionsFor = ix.restrictionsFor := by
  have hsurveyed := exists_ofWays_iff.mp ⟨ix, h⟩
  rw [Budget.cut_unlimited] at hsurveyed
  obtain ⟨ix', h'⟩ : ∃ ix', ofWays ways' keys .unlimited = .ok ix' := by
    rw [exists_ofWays_iff, Budget.cut_unlimited]
    exact fun w hw => hsurveyed w (hperm.mem_iff.mpr hw)
  refine ⟨ix', h', funext fun id => ?_⟩
  have hids' : (ways'.map Way.id).Nodup := (hperm.map Way.id).nodup_iff.mp hids
  have hentries : ix'.byWay.entries.Perm ix.byWay.entries := by
    rw [entries_ofWays h hids, entries_ofWays h' hids']
    exact statedBy_perm hperm.symm
  unfold restrictionsFor
  rw [OrderedMap.get?_eq_of_perm hentries]

end Survey

/-! ## Networks -/

variable {α : Type}

/-- What it costs to travel an edge does not depend on its number. -/
theorem Edge.stepFor_congr [Quantity α] {policy : Policy α} {t : Traveller α} {e f : Edge α}
    (h : f.toLink = e.toLink) : f.stepFor policy t = e.stepFor policy t := by
  obtain ⟨l, i⟩ := e
  obtain ⟨l', j⟩ := f
  cases h
  rfl

/-- Edges that lead by some steps lead by other steps if these go to the same nodes at the same
costs. -/
theorem Search.Path.exists_of_steps [Quantity α] {steps steps' : Ident → List (Edge α × α)}
    {start id : Ident} {es : List (Edge α)} {c : α}
    (hsteps : ∀ id e d, (e, d) ∈ steps id → ∃ f, (f, d) ∈ steps' id ∧ f.target = e.target)
    (h : Path steps start es id c) : ∃ fs, Path steps' start fs id c := by
  induction h with
  | stay => exact ⟨[], .stay⟩
  | step _ hstep ih =>
      obtain ⟨fs, hfs⟩ := ih
      obtain ⟨f, hf, htarget⟩ := hsteps _ _ _ hstep
      exact ⟨fs ++ [f], htarget ▸ hfs.step hf⟩

/-- Whether two networks have the same links, whatever the numbers of their edges. -/
def Network.SameLinks (g' g : Network α) : Prop :=
  ∀ l, (∃ e ∈ g'.edges, e.toLink = l) ↔ ∃ e ∈ g.edges, e.toLink = l

namespace Network.SameLinks

variable {g g' : Network α}

theorem symm (h : g'.SameLinks g) : g.SameLinks g' := fun l => (h l).symm

theorem exists_edge (h : g'.SameLinks g) {e : Edge α} (he : e ∈ g'.edges) :
    ∃ f ∈ g.edges, f.toLink = e.toLink :=
  (h _).mp ⟨e, he, rfl⟩

/-- What is true of some edge of one network, whatever its number, is true of some edge of the
other. -/
theorem exists_iff (h : g'.SameLinks g) {P : Edge α → Prop}
    (hP : ∀ e f : Edge α, f.toLink = e.toLink → P e → P f) :
    (∃ e ∈ g'.edges, P e) ↔ ∃ e ∈ g.edges, P e := by
  constructor
  · rintro ⟨e, he, hp⟩
    obtain ⟨f, hf, hlink⟩ := h.exists_edge he
    exact ⟨f, hf, hP e f hlink hp⟩
  · rintro ⟨e, he, hp⟩
    obtain ⟨f, hf, hlink⟩ := h.symm.exists_edge he
    exact ⟨f, hf, hP e f hlink hp⟩

end Network.SameLinks

/-- **Networks that differ in their order alone**: they have the same links and the same ways, and
the ways carry the same. -/
structure Network.Reorders [Quantity α] (g' g : Network α) : Prop where
  links : g'.SameLinks g
  way? : ∀ way, g'.way? way = g.way? way
  restrictionsOn : ∀ {way : Ident} {w' w : Way α} (hway' : g'.way? way = some w')
    (hway : g.way? way = some w), g'.restrictionsOn hway' = g.restrictionsOn hway

namespace Network.Reorders

variable [Quantity α] {g g' : Network α} {policy : Policy α} {t : Traveller α}

theorem symm (h : g'.Reorders g) : g.Reorders g' :=
  ⟨h.links.symm, fun way => (h.way? way).symm, fun hway' hway => (h.restrictionsOn hway hway').symm⟩

theorem cost_nonneg (h : g'.Reorders g) (hcost : ∀ e ∈ g.edges, Quantity.zero ≤ e.cost) :
    ∀ e ∈ g'.edges, Quantity.zero ≤ e.cost := by
  intro e he
  obtain ⟨f, hf, hlink⟩ := h.links.exists_edge he
  have hsame : f.cost = e.cost := congrArg Link.cost hlink
  exact hsame ▸ hcost f hf

theorem isAccessible_eq (h : g'.Reorders g) (way : Ident) :
    g'.isAccessible policy t way = g.isAccessible policy t way := by
  rw [Bool.eq_iff_iff, isAccessible_iff, isAccessible_iff]
  refine h.links.exists_iff fun e f hlink hp => ?_
  rw [Edge.stepFor_congr hlink]
  exact ⟨(congrArg Link.way hlink).trans hp.1, hp.2⟩

theorem mem_affectedWays_iff (h : g'.Reorders g) (way : Ident) :
    way ∈ g'.affectedWays t .unlimited ↔ way ∈ g.affectedWays t .unlimited := by
  rw [mem_affectedWays, mem_affectedWays]
  refine h.links.exists_iff fun e f hlink hp => ?_
  have hsame : f.restrictions = e.restrictions := congrArg Link.restrictions hlink
  rw [hsame]
  exact ⟨(congrArg Link.way hlink).trans hp.1, hp.2⟩

/-- **A path has its like in the other network**, with edges of other numbers and the same cost. -/
theorem exists_isPath (h : g'.Reorders g) {a b : Ident} {es : List (Edge α)} {c : α}
    (hpath : g'.IsPath policy t a b es c) : ∃ fs, g.IsPath policy t a b fs c := by
  simp only [isPath_iff] at hpath ⊢
  refine hpath.exists_of_steps fun id e d hstep => ?_
  obtain ⟨he, hsource, hd⟩ := mem_steps.mp hstep
  obtain ⟨f, hf, hlink⟩ := h.links.exists_edge he
  refine ⟨f, mem_steps.mpr ⟨hf, ?_, ?_⟩, congrArg Link.target hlink⟩
  · exact (congrArg Link.source hlink).trans hsource
  · rw [Edge.stepFor_congr hlink, hd]

theorem route_matches [LawfulQuantity α] (h : g'.Reorders g)
    (hpenalty : Quantity.zero < policy.penalty) (hcost : ∀ e ∈ g.edges, Quantity.zero ≤ e.cost)
    (a b : Ident) :
    (g.route policy t .unlimited a b).Matches (g'.route policy t .unlimited a b) :=
  matches_of_paths hpenalty hcost (h.cost_nonneg hcost) Iff.rfl
    (fun _ _ hpath => h.symm.exists_isPath hpath) fun _ _ hpath => h.exists_isPath hpath

end Network.Reorders

section Built

variable [Geometry α] {m : TagMapper} {metric : Metric} {ws ws' : List (Way α)}
  {restrictionsOf : Ident → List (Restriction α)} {g g' : Network α}

/-- What measures ways measures some of them. -/
def Measures.ofSubset (x : Measures m metric ws) (h : ∀ w ∈ ws', w ∈ ws) :
    Measures m metric ws' where
  factor := x.factor
  length := x.length
  factor_eq w hw := x.factor_eq w (h w hw)
  factor_ne_zero w hw := x.factor_ne_zero w (h w hw)
  length_eq w hw := x.length_eq w (h w hw)
  exists_speed w hw := x.exists_speed w (h w hw)

namespace Network

/-- If identifiers are not repeated, a network has the ways that take part, in their order. -/
theorem entries_ways (h : ofWays m metric restrictionsOf ws = .ok g)
    (hids : (ws.map Way.id).Nodup) :
    g.ways.entries = (ws.filter (·.takesPart m)).map fun w => (w.id, w) := by
  obtain ⟨-, -, -, hways⟩ := ofWays_eq_ok h
  rw [hways, OrderedMap.entries_ofList]
  rw [List.map_map]
  exact (List.filter_sublist.map Way.id).nodup hids

/-- **The network of the ways in another order** differs in its order alone. -/
theorem exists_reorders (h : ofWays m metric restrictionsOf ws = .ok g)
    (hids : (ws.map Way.id).Nodup) (hperm : ws.Perm ws') :
    ∃ g', ofWays m metric restrictionsOf ws' = .ok g' ∧ g'.Reorders g := by
  obtain ⟨x⟩ := nonempty_measures h
  obtain ⟨g', h'⟩ : ∃ g', ofWays m metric restrictionsOf ws' = .ok g' :=
    exists_ofWays_iff.mpr ⟨x.ofSubset fun w hw => hperm.mem_iff.mpr hw⟩
  have hids' : (ws'.map Way.id).Nodup := (hperm.map Way.id).nodup_iff.mp hids
  have hlinks : g'.SameLinks g := by
    intro l
    rw [exists_mem_edges_iff h, exists_mem_edges_iff h']
    simp only [hperm.mem_iff]
  refine ⟨g', h', hlinks, fun way => ?_, fun hway' hway => ?_⟩
  · have hentries : g'.ways.entries.Perm g.ways.entries := by
      rw [entries_ways h hids, entries_ways h' hids']
      exact (hperm.symm.filter _).map _
    exact OrderedMap.get?_eq_of_perm hentries way
  · rw [restrictionsOn_eq h, restrictionsOn_eq h']

end Network

end Built

/-! ## Routers -/

namespace Router

/-- **Routers that answer alike** whatever they are asked without a budget. -/
structure AnswersAs [Quantity α] (r r' : Router α) : Prop where
  /-- A route is found by both, at costs of which none is greater, or by none. -/
  route : ∀ t a b, (r.route t .unlimited a b).Matches (r'.route t .unlimited a b)
  /-- The same ways are affected. -/
  affectedWays : ∀ t way, way ∈ r.network.affectedWays t .unlimited ↔
    way ∈ r'.network.affectedWays t .unlimited
  isAccessible : ∀ t way, r.isAccessible t way = r'.isAccessible t way
  isOneway : ∀ way time, r.isOneway way time = r'.isOneway way time
  maxSpeed : ∀ way time choice, r.maxSpeed way time choice = r'.maxSpeed way time choice

theorem answersAs_of_reorders [Quantity α] [LawfulQuantity α] {r : Router α} {g : Network α}
    {issues : List Issue} (h : g.Reorders r.network) (hpenalty : Quantity.zero < r.policy.penalty)
    (hcost : ∀ e ∈ r.network.edges, Quantity.zero ≤ e.cost) :
    r.AnswersAs { r with network := g, issues := issues } where
  route _ := h.route_matches hpenalty hcost
  affectedWays _ way := (h.mem_affectedWays_iff way).symm
  isAccessible _ way := (h.isAccessible_eq way).symm
  isOneway way time := by
    cases hway : r.network.way? way with
    | none =>
        rw [isOneway_of_unknown hway, isOneway_of_unknown ((h.way? way).trans hway)]
    | some w =>
        have hway' : g.way? way = some w := (h.way? way).trans hway
        rw [isOneway_of_known hway, isOneway_of_known hway', h.restrictionsOn hway' hway]
  maxSpeed way time choice := by
    cases hway : r.network.way? way with
    | none =>
        rw [maxSpeed_of_unknown hway, maxSpeed_of_unknown ((h.way? way).trans hway)]
    | some w =>
        have hway' : g.way? way = some w := (h.way? way).trans hway
        rw [maxSpeed_of_known hway, maxSpeed_of_known hway', h.restrictionsOn hway' hway]

/-- **The order of the ways does not matter.** Let a router be rebuilt from the tags of ways with
different identifiers, so that no edge costs less than zero. Then it can be rebuilt from the ways in
any other order, and it answers alike: the same routes are found, at costs of which none is greater
and which are equal if the order tells all quantities apart, the same ways are affected, and for
each identifier there is one answer to whether the way can be travelled, whether it is one-way, and
which speed is permitted on it. -/
theorem rebuild_reordered [Geometry α] [LawfulQuantity α] {r r₁ : Router α}
    {ways ways' : List (Way α)} (hids : (ways.map Way.id).Nodup) (hperm : ways.Perm ways')
    (hrebuild : r.rebuild ways .tags = .ok r₁) (hpenalty : Quantity.zero < r.policy.penalty)
    (hcost : ∀ e ∈ r₁.network.edges, Quantity.zero ≤ e.cost) :
    ∃ r₂, r.rebuild ways' .tags = .ok r₂ ∧ r₁.AnswersAs r₂ ∧
      ((∀ a b : α, a ≤ b → b ≤ a → a = b) → ∀ t a b,
        (r₁.route t .unlimited a b).cost = (r₂.route t .unlimited a b).cost) := by
  obtain ⟨ix, g, hix, hg, rfl⟩ := rebuild_eq_ok_iff.mp hrebuild
  obtain ⟨ix', hix', hsame⟩ := RestrictionIndex.exists_ofWays_of_perm hids hperm hix
  obtain ⟨g', hg', hreorders⟩ := Network.exists_reorders hg hids hperm
  have hanswers : Router.AnswersAs { r with network := g, issues := ix.issues }
      { r with network := g', issues := ix'.issues } :=
    answersAs_of_reorders hreorders hpenalty hcost
  exact ⟨_, rebuild_eq_ok_iff.mpr ⟨ix', g', hix', hsame ▸ hg', rfl⟩, hanswers,
    fun hantisymm t a b => (hanswers.route t a b).cost_eq hantisymm⟩

/-- Two roads between two nodes, one of them by a third node, with rules for both. -/
def loopedRoads : List (Way ℚ) :=
  [shortRoad [("access:conditional", "no @ (Mo-Fr)")],
    ⟨.name "detour", .ofList [("highway", "residential"), ("oneway", "yes"),
      ("maxspeed:conditional", "20 @ (Sa,Su)")],
      [⟨.number 2, 1, 0⟩, ⟨.number 3, 2, 0⟩, ⟨.number 1, 0, 0⟩]⟩]

theorem rebuild_reordered_looped :
    ∃ r₁ r₂ : Router ℚ, planarRouter.rebuild loopedRoads .tags = .ok r₁ ∧
      planarRouter.rebuild loopedRoads.reverse .tags = .ok r₂ ∧ r₁.AnswersAs r₂ := by
  have hmade : ((planarRouter.rebuild loopedRoads .tags).map fun r =>
      r.network.edges.all fun e => decide (Quantity.zero ≤ e.cost)) = .ok true := by decide +kernel
  obtain ⟨r₁, hr₁, hcosts⟩ := map_eq_ok.mp hmade
  obtain ⟨r₂, hr₂, hanswers, -⟩ := rebuild_reordered (by decide) (List.reverse_perm _).symm hr₁
    Policy.penalty_standard fun e he => of_decide_eq_true (List.all_eq_true.mp hcosts e he)
  exact ⟨r₁, r₂, hr₁, hr₂, hanswers⟩

end Router

end RoadRules
