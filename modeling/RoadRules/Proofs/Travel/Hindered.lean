import RoadRules.Proofs.Network.Oneway
import RoadRules.Proofs.Network.Restricted
import RoadRules.Proofs.Travel.Compared
import RoadRules.Proofs.Travel.Harder

set_option autoImplicit false

/-! # More restriction never helps

Two networks of the same ways under different restrictions have the same edges but for what these
carry, so a path of the one is a path of the other as far as the edges can be travelled. If
restrictions are only added, or a vehicle only gets heavier or higher, the path of the easier travel
costs no more, and so does the cheapest one (`Router.rebuild_hindered`). -/

namespace RoadRules

open LawfulQuantity MonotoneQuantity

variable {α : Type}

namespace Edge

theorem leads_map_under {restrictionsOf : Ident → List (Restriction α)} {a b : Ident}
    {es : List (Edge α)} (h : Leads a es b) : Leads a (es.map (under restrictionsOf)) b := by
  induction es generalizing a with
  | nil => exact h
  | cons e rest ih => exact ⟨h.1, ih h.2⟩

variable [Quantity α] [MonotoneQuantity α] {policy : Policy α} {t t' : Traveller α}

/-- **A total grows with its steps.** -/
theorem totalFor_le {f : Edge α → Edge α} {es : List (Edge α)}
    (hstep : ∀ e ∈ es, CostsAtMost ((f e).stepFor policy t) (e.stepFor policy t'))
    (hnonneg : ∀ e ∈ es, ∀ d, (f e).stepFor policy t = some d → Quantity.zero ≤ d) :
    CostsAtMost (totalFor policy t (es.map f)) (totalFor policy t' es) := by
  -- From the last edge on, since totals are formed in the order of travel.
  induction es using List.reverseRecOn with
  | nil => exact fun c' hc' => ⟨c', hc', le_refl c'⟩
  | append_singleton es e ih =>
      intro c' hc'
      obtain ⟨b', d', hb', hd', rfl⟩ := totalFor_concat.mp hc'
      have hbefore := ih (fun x hx => hstep x (List.mem_append_left _ hx))
        (fun x hx => hnonneg x (List.mem_append_left _ hx))
      obtain ⟨b, hb, hbb⟩ := hbefore b' hb'
      have hlast : e ∈ es ++ [e] := List.mem_append_right _ (List.mem_singleton_self e)
      obtain ⟨d, hd, hdd⟩ := hstep e hlast d' hd'
      refine ⟨b + d, ?_, add_le_add_both hbb (hnonneg e hlast d hd) hdd⟩
      rw [List.map_append]
      exact totalFor_concat.mpr ⟨b, d, hb, hd, rfl⟩

end Edge

/-! ## Two networks of the same ways -/

/-- **Travel of a traveller on a network that is no easier than travel of another one**: the network
is the other one under other restrictions, which have all that the edges carry and maybe more. -/
structure Network.Hinders [Quantity α] (g' : Network α) (t' : Traveller α) (g : Network α)
    (t : Traveller α) (restrictionsOf restrictionsOf' : Ident → List (Restriction α)) : Prop where
  nodes : g'.nodes = g.nodes
  edges : g'.edges = g.edges.map (Edge.under restrictionsOf')
  /-- The edges of the one network carry what is looked up for it. -/
  carried : ∀ e ∈ g.edges, e.under restrictionsOf = e
  added : ∀ id, (restrictionsOf id).Subperm (restrictionsOf' id)
  noEasier : ∀ e ∈ g.edges, t'.IsNoEasier t e.restrictions

namespace Network.Hinders

variable [Quantity α] {g g' : Network α} {t t' : Traveller α}
  {restrictionsOf restrictionsOf' : Ident → List (Restriction α)} {policy : Policy α}

section Edges

variable (h : g'.Hinders t' g t restrictionsOf restrictionsOf')

include h

/-- An edge of the one network is an edge of the other one with other restrictions. -/
theorem mem_of_mem {e : Edge α} (he : e ∈ g'.edges) :
    e.under restrictionsOf ∈ g.edges ∧
      e = (e.under restrictionsOf).under restrictionsOf' := by
  rw [h.edges] at he
  obtain ⟨f, hf, rfl⟩ := List.mem_map.mp he
  have hcarried : (f.under restrictionsOf').under restrictionsOf = f := h.carried f hf
  rw [hcarried]
  exact ⟨hf, rfl⟩

theorem restrictions_subperm {e : Edge α} (he : e ∈ g.edges) :
    e.restrictions.Subperm (restrictionsOf' e.way) := by
  rw [← h.carried e he]
  exact h.added e.way

end Edges

variable [MonotoneQuantity α] (h : g'.Hinders t' g t restrictionsOf restrictionsOf')
  (hpenalty : Quantity.ofNat 1 ≤ policy.penalty) (hcost : ∀ e ∈ g.edges, Quantity.zero ≤ e.cost)

include h hpenalty hcost

theorem costFor_le {e : Edge α} (he : e ∈ g.edges) :
    CostsAtMost (e.costFor policy t) ((e.under restrictionsOf').costFor policy t') :=
  Edge.costFor_le hpenalty (hcost e he) (h.restrictions_subperm he) (h.noEasier e he)

theorem stepFor_le {e : Edge α} (he : e ∈ g'.edges) :
    CostsAtMost ((e.under restrictionsOf).stepFor policy t) (e.stepFor policy t') := by
  obtain ⟨hmem, heq⟩ := h.mem_of_mem he
  have hle := Edge.stepFor_le hpenalty (hcost _ hmem) (h.restrictions_subperm hmem)
    (h.noEasier _ hmem)
  intro d hd
  rw [heq] at hd
  exact hle d hd

/-- The edges cost no less, one by one. -/
theorem forall₂_costFor_le :
    List.Forall₂ (fun e e' => e'.id = e.id ∧
      CostsAtMost (e.costFor policy t) (e'.costFor policy t')) g.edges g'.edges := by
  rw [h.edges, List.forall₂_map_right_iff, List.forall₂_same]
  exact fun e he => ⟨rfl, h.costFor_le hpenalty hcost he⟩

/-- A way that can be travelled with more restrictions can be travelled with fewer. -/
theorem isAccessible {way : Ident} (haccessible : g'.isAccessible policy t' way = true) :
    g.isAccessible policy t way = true := by
  obtain ⟨e, he, hway, hsome⟩ := isAccessible_iff.mp haccessible
  obtain ⟨d, hd⟩ := Option.isSome_iff_exists.mp hsome
  obtain ⟨c, hc, -⟩ := h.stepFor_le hpenalty hcost he d hd
  exact isAccessible_iff.mpr ⟨e.under restrictionsOf, (h.mem_of_mem he).1, hway,
    Option.isSome_iff_exists.mpr ⟨c, hc⟩⟩

/-- **A path with more restrictions is a path with fewer**, and costs no less. -/
theorem isPath {a b : Ident} {es : List (Edge α)} {c' : α} (hpath : g'.IsPath policy t' a b es c') :
    ∃ c, g.IsPath policy t a b (es.map (Edge.under restrictionsOf)) c ∧ c ≤ c' := by
  have hmem : ∀ e ∈ es, e.under restrictionsOf ∈ g.edges := fun e he =>
    (h.mem_of_mem (hpath.edges e he)).1
  have htotal : CostsAtMost (Edge.totalFor policy t (es.map (Edge.under restrictionsOf)))
      (Edge.totalFor policy t' es) :=
    Edge.totalFor_le (fun e he => h.stepFor_le hpenalty hcost (hpath.edges e he)) fun e he d hd =>
      Edge.stepFor_nonneg (lt_of_lt_of_le zero_lt_one hpenalty) (hcost _ (hmem e he)) hd
  obtain ⟨c, hc, hle⟩ := htotal c' hpath.total
  refine ⟨c, ⟨?_, Edge.leads_map_under hpath.leads, hc⟩, hle⟩
  intro e he
  obtain ⟨f, hf, rfl⟩ := List.mem_map.mp he
  exact hmem f hf

/-- **A route that is found with more restrictions** is found with fewer, at no greater cost. -/
theorem route {start goal : Ident}
    (hfound : (g'.route policy t' .unlimited start goal).found = true) :
    (g.route policy t .unlimited start goal).found = true ∧
      ∃ c c', (g.route policy t .unlimited start goal).cost = some c ∧
        (g'.route policy t' .unlimited start goal).cost = some c' ∧ c ≤ c' := by
  refine route_le_of_paths (lt_of_lt_of_le zero_lt_one hpenalty) hcost (fun e he => ?_) id
    (fun _ _ hpath => ?_) hfound
  · exact hcost (e.under restrictionsOf) (h.mem_of_mem he).1
  · obtain ⟨c, hpath, hle⟩ := h.isPath hpenalty hcost hpath
    exact ⟨_, c, hpath, hle⟩

end Network.Hinders

/-! ## Routers -/

namespace Router

/-- **More restriction never helps.** Let restrictions be added to those that a router is rebuilt
with, or let the traveller get heavier or higher where the restrictions only bound dimensions from
below. Then no edge costs less, no more ways can be travelled, and a route that is found without a
budget was found before, at no greater cost. -/
theorem rebuild_hindered [Geometry α] [MonotoneQuantity α] {r r₁ : Router α} {ways : List (Way α)}
    {source source' : RestrictionSource α} {ix ix' : RestrictionIndex α} {t t' : Traveller α}
    (hix : source.resolve ways = .ok ix) (hix' : source'.resolve ways = .ok ix')
    (hadded : ∀ id, (ix.restrictionsFor id).Subperm (ix'.restrictionsFor id))
    (hrebuild : r.rebuild ways source = .ok r₁)
    (ht : t' = t ∨ (t'.Outweighs t ∧
      ∀ e ∈ r₁.network.edges, ∀ x ∈ e.restrictions, x.BoundsBelow))
    (hpenalty : Quantity.ofNat 1 ≤ r.policy.penalty)
    (hcost : ∀ e ∈ r₁.network.edges, Quantity.zero ≤ e.cost) :
    ∃ r₂, r.rebuild ways source' = .ok r₂ ∧
      List.Forall₂ (fun e e' => e'.id = e.id ∧
        CostsAtMost (e.costFor r₁.policy t) (e'.costFor r₂.policy t'))
        r₁.network.edges r₂.network.edges ∧
      (∀ way, r₂.isAccessible t' way = true → r₁.isAccessible t way = true) ∧
      ∀ start goal, (r₂.route t' .unlimited start goal).found = true →
        (r₁.route t .unlimited start goal).found = true ∧
          ∃ c c', (r₁.route t .unlimited start goal).cost = some c ∧
            (r₂.route t' .unlimited start goal).cost = some c' ∧ c ≤ c' := by
  obtain ⟨hpolicy, hbuilt⟩ := rebuild_eq_ok hix hrebuild
  obtain ⟨g', hbuilt'⟩ := Network.exists_ofWays_of_ofWays hbuilt ix'.restrictionsFor
  obtain ⟨hnodes, hedges⟩ := Network.edges_of_ofWays_ofWays hbuilt hbuilt'
  have hhinders : g'.Hinders t' r₁.network t ix.restrictionsFor ix'.restrictionsFor :=
    { nodes := hnodes
      edges := hedges
      carried := fun e he => Network.under_eq_self hbuilt he
      added := hadded
      noEasier := fun e he => ht.imp_right fun hheavier => ⟨hheavier.1, hheavier.2 e he⟩ }
  refine ⟨{ r with network := g', issues := ix'.issues }, ?_, ?_⟩
  · exact rebuild_eq_ok_iff.mpr ⟨ix', g', hix', hbuilt', rfl⟩
  · rw [hpolicy]
    unfold isAccessible route
    rw [hpolicy]
    exact ⟨hhinders.forall₂_costFor_le hpenalty hcost,
      fun _ => hhinders.isAccessible hpenalty hcost,
      fun _ _ => hhinders.route hpenalty hcost⟩

/-- A rule that slows heavy vehicles. -/
def heavyRule : Restriction ℚ where
  key := "maxspeed:conditional"
  value := "20"
  windows := []
  weight := some ⟨.greater, 3⟩
  height := none
  raw := "20 @ (weight>3)"

/-- The rules of a road with a rule for heavy vehicles, and maybe more rules. -/
def heavyRules (more : List (Restriction ℚ)) : OrderedMap Ident (List (Restriction ℚ)) :=
  .ofList [(.number 1, heavyRule :: more)]

theorem restrictionsFor_heavyRules (more : List (Restriction ℚ)) (id : Ident) :
    (⟨heavyRules more, [], false⟩ : RestrictionIndex ℚ).restrictionsFor id =
      if id = .number 1 then heavyRule :: more else [] := by
  simp only [RestrictionIndex.restrictionsFor, heavyRules, OrderedMap.ofList, List.foldl_cons,
    List.foldl_nil, OrderedMap.get?_insert, OrderedMap.get?_empty]
  split <;> rfl

/-- A car that is heavier than usual. -/
def heavyCar : Traveller ℚ := { earlyCar with ownWeight := some 4 }

theorem outweighs_heavyCar : heavyCar.Outweighs earlyCar :=
  ⟨rfl, rfl, by decide +kernel, LawfulQuantity.le_refl _⟩

theorem rebuild_hindered_heavy :
    ∃ r₁ r₂ : Router ℚ,
      planarRouter.rebuild [shortRoad []] (.given (heavyRules [])) = .ok r₁ ∧
      planarRouter.rebuild [shortRoad []]
        (.given (heavyRules [weekdayRule "yes" "yes @ (Mo-Fr)"])) = .ok r₂ ∧
      (r₁.network.edges.map fun e => e.costFor r₁.policy earlyCar) = [some 1, some 1] ∧
      (r₂.network.edges.map fun e => e.costFor r₂.policy heavyCar) = [some (5 / 2), none] ∧
      (∀ way, r₂.isAccessible heavyCar way = true → r₁.isAccessible earlyCar way = true) ∧
      ∀ start goal, (r₂.route heavyCar .unlimited start goal).found = true →
        (r₁.route earlyCar .unlimited start goal).found = true := by
  have hresolve : ∀ lists : OrderedMap Ident (List (Restriction ℚ)),
      (RestrictionSource.given lists).resolve [shortRoad []] = .ok ⟨lists, [], false⟩ :=
    fun _ => rfl
  have hadded : ∀ id, ((⟨heavyRules [], [], false⟩ : RestrictionIndex ℚ).restrictionsFor id).Subperm
      ((⟨heavyRules [weekdayRule "yes" "yes @ (Mo-Fr)"], [], false⟩ :
        RestrictionIndex ℚ).restrictionsFor id) := by
    intro id
    rw [restrictionsFor_heavyRules, restrictionsFor_heavyRules]
    split
    · exact ((List.nil_sublist _).cons_cons _).subperm
    · exact List.Subperm.refl []
  have hmade : ((planarRouter.rebuild [shortRoad []] (.given (heavyRules []))).map fun r =>
      (r.network.edges.map fun e => (e.cost, e.restrictions),
        r.network.edges.map fun e => e.costFor r.policy earlyCar)) =
      .ok ([(1, [heavyRule]), (1, [heavyRule])], [some 1, some 1]) := by decide +kernel
  have hmade' : ((planarRouter.rebuild [shortRoad []]
      (.given (heavyRules [weekdayRule "yes" "yes @ (Mo-Fr)"]))).map fun r =>
        r.network.edges.map fun e => e.costFor r.policy heavyCar) =
      .ok [some (5 / 2), none] := by decide +kernel
  obtain ⟨r₁, hr₁, heq⟩ := map_eq_ok.mp hmade
  obtain ⟨hedges, hcosts⟩ := Prod.mk.inj heq
  have hedge : ∀ e ∈ r₁.network.edges, e.cost = 1 ∧ e.restrictions = [heavyRule] := by
    intro e he
    have hmem : (e.cost, e.restrictions) ∈ [((1 : ℚ), [heavyRule]), (1, [heavyRule])] :=
      hedges ▸ List.mem_map_of_mem he
    simpa using hmem
  have hbelow : ∀ e ∈ r₁.network.edges, ∀ x ∈ e.restrictions, x.BoundsBelow := by
    intro e he x hx
    rw [(hedge e he).2, List.mem_singleton] at hx
    subst hx
    rintro c (hc | hc) <;> cases hc
    rfl
  obtain ⟨r₂, hr₂, -, haccessible, hroute⟩ := rebuild_hindered (hresolve _) (hresolve _) hadded hr₁
    (Or.inr ⟨outweighs_heavyCar, hbelow⟩) (by decide +kernel) fun e he => by
      rw [(hedge e he).1]
      decide +kernel
  rw [hr₂] at hmade'
  exact ⟨r₁, r₂, hr₁, hr₂, hcosts, Except.ok.inj hmade', haccessible,
    fun start goal hfound => (hroute start goal hfound).1⟩

end Router

end RoadRules
