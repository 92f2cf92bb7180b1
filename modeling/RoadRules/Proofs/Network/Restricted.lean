import RoadRules.Proofs.Network.Reference

set_option autoImplicit false

/-! # One network under several restrictions

Restrictions take no part in building a network but for being carried by its edges. So the network
of some ways under other restrictions has the same nodes and the same edges, only that these carry
what is looked up elsewhere (`Network.edges_of_ofWays_ofWays`). -/

namespace RoadRules

variable {α : Type}

/-- A link that carries what is looked up under the identifier of its way. -/
def Link.under (restrictionsOf : Ident → List (Restriction α)) (l : Link α) : Link α :=
  { l with restrictions := restrictionsOf l.way }

namespace Edge

/-- An edge that carries what is looked up under the identifier of its way. -/
def under (restrictionsOf : Ident → List (Restriction α)) (e : Edge α) : Edge α :=
  { e with restrictions := restrictionsOf e.way }

theorem number_map_under (restrictionsOf : Ident → List (Restriction α)) (first : Nat)
    (ls : List (Link α)) :
    number first (ls.map (Link.under restrictionsOf)) =
      (number first ls).map (under restrictionsOf) := by
  induction ls generalizing first with
  | nil => rfl
  | cons l rest ih =>
      rw [List.map_cons, number, ih]
      rfl

end Edge

variable [Geometry α] {m : TagMapper} {metric : Metric} {ws : List (Way α)}
  {restrictionsOf restrictionsOf' : Ident → List (Restriction α)}

namespace Measures

variable (x : Measures m metric ws)

theorem map_under_links (w : Way α) :
    (x.links restrictionsOf w).map (Link.under restrictionsOf') = x.links restrictionsOf' w := by
  unfold links
  rw [List.map_flatMap]
  congr
  funext s
  unfold linksOn
  cases TagMapper.direction w.scalarTags <;> rfl

theorem map_under_allLinks :
    (x.allLinks restrictionsOf).map (Link.under restrictionsOf') =
      x.allLinks restrictionsOf' := by
  unfold allLinks
  rw [List.map_flatMap]
  congr
  funext w
  exact x.map_under_links w

end Measures

namespace Network

variable {g g' : Network α}

/-- **The network under other restrictions** has the same nodes and, but for the restrictions that
they carry, the same edges. -/
theorem edges_of_ofWays_ofWays (h : ofWays m metric restrictionsOf ws = .ok g)
    (h' : ofWays m metric restrictionsOf' ws = .ok g') :
    g'.nodes = g.nodes ∧ g'.edges = g.edges.map (Edge.under restrictionsOf') := by
  obtain ⟨x⟩ := nonempty_measures h
  obtain ⟨hedges, hnodes, -⟩ := ofWays_parts x h
  obtain ⟨hedges', hnodes', -⟩ := ofWays_parts x h'
  rw [hedges, hedges', hnodes, hnodes', ← Edge.number_map_under, x.map_under_allLinks]
  exact ⟨rfl, rfl⟩

/-- The edges of a network carry what is looked up under the identifiers of their ways. -/
theorem under_eq_self (h : ofWays m metric restrictionsOf ws = .ok g) {e : Edge α}
    (he : e ∈ g.edges) : e.under restrictionsOf = e := by
  unfold Edge.under
  rw [← restrictions_eq h he]

/-- Whether a network can be built does not depend on the restrictions. -/
theorem exists_ofWays_of_ofWays (h : ofWays m metric restrictionsOf ws = .ok g)
    (restrictionsOf' : Ident → List (Restriction α)) :
    ∃ g', ofWays m metric restrictionsOf' ws = .ok g' :=
  exists_ofWays_iff.mpr (nonempty_measures h)

end Network

end RoadRules
