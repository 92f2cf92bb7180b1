import RoadRules.Proofs.Travel.Cheapest

set_option autoImplicit false

/-! # Routes of two networks

A route without a budget is a cheapest path, so two routes compare like the paths they are chosen
from. If the paths of one network are paths of another, perhaps of less cost, a route that the one
has the other has too (`Network.route_le_of_paths`); if the paths have the same costs both ways, the
routes are worth the same (`Network.matches_of_paths`). The networks may be one network, travelled
between different nodes. -/

namespace RoadRules

variable {α : Type} [Quantity α]

/-- **Routes that are worth the same**: both are found, and neither costs more than the other, or
none is. -/
structure Route.Matches (r r' : Route α) : Prop where
  found : r.found = r'.found
  cost : Option.Rel (fun c c' => c ≤ c' ∧ c' ≤ c) r.cost r'.cost

/-- The costs are equal if the order tells all quantities apart. -/
theorem Route.Matches.cost_eq {r r' : Route α} (h : r.Matches r')
    (hantisymm : ∀ a b : α, a ≤ b → b ≤ a → a = b) : r.cost = r'.cost := by
  have hcost := h.cost
  generalize r.cost = x, r'.cost = y at hcost ⊢
  cases hcost with
  | none => rfl
  | some hle => exact congrArg some (hantisymm _ _ hle.1 hle.2)

namespace Network

variable {g g' : Network α} {policy : Policy α} {t t' : Traveller α} {budget : Budget}
  {a b a' b' : Ident}

/-- A route is only found between two different nodes of the network. -/
theorem ends_of_found (h : (g.route policy t budget a b).found = true) :
    a ≠ b ∧ g.hasNode a = true ∧ g.hasNode b = true := by
  unfold route at h
  split at h
  · cases h
  · rename_i hends
    simpa using hends

/-- A route that is not found has no cost. -/
theorem cost_of_not_found (h : (g.route policy t budget a b).found = false) :
    (g.route policy t budget a b).cost = none := by
  unfold route Route.ofSearch at h ⊢
  split
  · rfl
  · split at h
    · contradiction
    · dsimp only at h ⊢
      split at h
      · cases h
      · rfl

omit [Quantity α] in
theorem hasNode_of_mem {e : Edge α} (he : e ∈ g.edges) :
    g.hasNode e.source = true ∧ g.hasNode e.target = true := by
  unfold Snapshot.hasNode
  rw [OrderedMap.contains_iff, OrderedMap.contains_iff]
  exact g.inStep.closed e he

/-- A path between two different nodes leads from a node of the network to another. -/
theorem IsPath.hasNode {es : List (Edge α)} {c : α} (h : g.IsPath policy t a b es c)
    (hne : a ≠ b) : g.hasNode a = true ∧ g.hasNode b = true := by
  constructor
  · cases es with
    | nil => exact absurd h.leads hne
    | cons e rest => exact h.leads.1 ▸ (hasNode_of_mem (h.edges e List.mem_cons_self)).1
  · rcases List.eq_nil_or_concat es with rfl | ⟨before, e, rfl⟩
    · exact absurd h.leads hne
    · rw [List.concat_eq_append] at h
      have hlast : e ∈ before ++ [e] := List.mem_append_right _ (List.mem_singleton_self e)
      exact (Edge.leads_concat.mp h.leads).2 ▸ (hasNode_of_mem (h.edges e hlast)).2

variable [LawfulQuantity α] (hpenalty : Quantity.zero < policy.penalty)
  (hcost : ∀ e ∈ g.edges, Quantity.zero ≤ e.cost) (hcost' : ∀ e ∈ g'.edges, Quantity.zero ≤ e.cost)

include hpenalty hcost hcost'

/-- **A route that is found elsewhere.** If every path of the one travel gives a path of the other
travel that costs no more, a route that the one finds the other finds too, at no greater cost. -/
theorem route_le_of_paths (hne : a' ≠ b' → a ≠ b)
    (hpaths : ∀ es' c', g'.IsPath policy t' a' b' es' c' →
      ∃ es c, g.IsPath policy t a b es c ∧ c ≤ c')
    (hfound : (g'.route policy t' .unlimited a' b').found = true) :
    (g.route policy t .unlimited a b).found = true ∧
      ∃ c c', (g.route policy t .unlimited a b).cost = some c ∧
        (g'.route policy t' .unlimited a' b').cost = some c' ∧ c ≤ c' := by
  obtain ⟨hne', hstart', hgoal'⟩ := ends_of_found hfound
  rcases route_unlimited t' hpenalty hcost' hne' hstart' hgoal' with
    ⟨hmissing, -⟩ | ⟨es', c', hroute', hpath', hbounded', -⟩
  · rw [hmissing] at hfound
    cases hfound
  · -- The path of the route gives a path of the other travel, at a bounded cost.
    obtain ⟨es, c, hpath, hle⟩ := hpaths es' c' hpath'
    have hbounded := LawfulQuantity.isBounded_of_le hle hbounded'
    obtain ⟨hstart, hgoal⟩ := hpath.hasNode (hne hne')
    rcases route_unlimited t hpenalty hcost (hne hne') hstart hgoal with
      ⟨-, hno⟩ | ⟨es₀, d, hroute, -, -, hleast⟩
    · exact absurd hbounded (hno es c hpath)
    · have hcheaper : d ≤ c' := calc
        d ≤ c := hleast es c hpath hbounded
        _ ≤ c' := hle
      rw [hroute, hroute']
      exact ⟨rfl, d, c', rfl, rfl, hcheaper⟩

/-- **Routes of the same paths are worth the same.** -/
theorem matches_of_paths (hne : a = b ↔ a' = b')
    (hpaths : ∀ es c, g.IsPath policy t a b es c → ∃ es', g'.IsPath policy t' a' b' es' c)
    (hpaths' : ∀ es' c, g'.IsPath policy t' a' b' es' c → ∃ es, g.IsPath policy t a b es c) :
    (g.route policy t .unlimited a b).Matches (g'.route policy t' .unlimited a' b') := by
  have hforth := route_le_of_paths hpenalty hcost' hcost (mt hne.mpr)
    fun es c hpath => (hpaths es c hpath).imp fun _ h => ⟨c, h, LawfulQuantity.le_refl c⟩
  have hback := route_le_of_paths hpenalty hcost hcost' (mt hne.mp)
    fun es c hpath => (hpaths' es c hpath).imp fun _ h => ⟨c, h, LawfulQuantity.le_refl c⟩
  cases hfound : (g.route policy t .unlimited a b).found with
  | true =>
      obtain ⟨hfound', c', c, hc', hc, hle'⟩ := hforth hfound
      obtain ⟨-, d, d', hd, hd', hle⟩ := hback hfound'
      obtain rfl : c = d := Option.some.inj (hc.symm.trans hd)
      obtain rfl : c' = d' := Option.some.inj (hc'.symm.trans hd')
      refine ⟨hfound.trans hfound'.symm, ?_⟩
      rw [hc, hc']
      exact .some ⟨hle, hle'⟩
  | false =>
      have hfound' : (g'.route policy t' .unlimited a' b').found = false := by
        rw [← Bool.not_eq_true]
        intro hfound'
        rw [(hback hfound').1] at hfound
        cases hfound
      refine ⟨hfound.trans hfound'.symm, ?_⟩
      rw [cost_of_not_found hfound, cost_of_not_found hfound']
      exact .none

end Network

end RoadRules
