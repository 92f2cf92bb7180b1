import RoadRules.Network.InStep

set_option autoImplicit false

/-! # Road networks

A network has nodes, numbered edges between them, and the ways that the edges belong to. It is a
snapshot whose tables are in step: it can only be made of a draft that is settled, such as that of a
list of ways. Therefore what one table says the others bear out; a way that a network knows has an
edge, for example (`Network.edgesOf_ne_nil`). -/

namespace RoadRules

namespace Snapshot

variable {γ α : Type}

/-- The edges under a way are the ones among those that were entered. -/
theorem getD_get?_foldl_enter (es : List (Edge α)) (table : OrderedMap Ident (List (Edge α)))
    (way : Ident) :
    ((es.foldl enter table).get? way).getD [] =
      (table.get? way).getD [] ++ es.filter fun e => e.way == way := by
  induction es generalizing table with
  | nil => exact (List.append_nil _).symm
  | cons e rest ih =>
    rw [List.foldl_cons, ih, enter, OrderedMap.alter, OrderedMap.get?_insert]
    by_cases h : e.way = way
    · rw [if_pos h.symm, h]
      simp [h]
    · rw [if_neg (Ne.symm h)]
      simp [h]

variable [Multigraph γ α]

/-- Whether the tables of a snapshot are those of a settled draft. -/
def InStep (s : Snapshot γ α) : Prop := ∃ d : Draft γ α, d.Settled ∧ ofDraft d = s

variable {s : Snapshot γ α}

/-- The edges of a way are those among all edges that belong to it. -/
theorem InStep.edgesOf_eq (h : s.InStep) (way : Ident) :
    s.edgesOf way = s.edges.filter fun e => e.way == way := by
  obtain ⟨d, -, rfl⟩ := h
  exact getD_get?_foldl_enter d.edges .empty way

/-- **A way that is known has an edge.** -/
theorem InStep.edgesOf_ne_nil (h : s.InStep) {way : Ident} {w : Way α}
    (hway : s.way? way = some w) : s.edgesOf way ≠ [] := by
  rw [h.edgesOf_eq]
  obtain ⟨d, hd, rfl⟩ := h
  obtain ⟨e, he, howner⟩ := hd.owned way (OrderedMap.mem_keys_of_get? hway)
  exact List.ne_nil_of_mem (List.mem_filter.mpr ⟨he, beq_iff_eq.mpr howner⟩)

variable [LawfulMultigraph γ]

theorem inStep_empty : (empty : Snapshot γ α).InStep := by
  refine ⟨.empty, Draft.settled_empty, ?_⟩
  show ofTables _ _ _ ⟨(Multigraph.nodes (Multigraph.empty : γ)).size, 0, 0, 0, 0⟩ = _
  rw [LawfulMultigraph.nodes_empty]
  rfl

/-- **The tables that are built from ways are in step.** -/
theorem inStep_of_ofWays [Geometry α] {m : TagMapper} {metric : Metric}
    {restrictionsOf : Ident → List (Restriction α)} {ws : List (Way α)}
    (h : ofWays m metric restrictionsOf ws = .ok s) : s.InStep := by
  obtain ⟨d, hd, rfl⟩ := map_eq_ok.mp h
  exact ⟨d, Draft.settled_of_ofWays hd, rfl⟩

end Snapshot

/-- A road network. -/
structure Network (α : Type) extends Snapshot (AdjacencyMaps α) α where
  inStep : toSnapshot.InStep

namespace Network

variable {α : Type}

def empty : Network α := ⟨.empty, Snapshot.inStep_empty⟩

/-- The network of a list of ways, whose restrictions are looked up by the identifiers of the
ways. -/
def ofWays [Geometry α] (m : TagMapper) (metric : Metric)
    (restrictionsOf : Ident → List (Restriction α)) (ws : List (Way α)) :
    Except Fault (Network α) :=
  match h : (Snapshot.ofWays m metric restrictionsOf ws :
      Except Fault (Snapshot (AdjacencyMaps α) α)) with
  | .error f => .error f
  | .ok s => .ok ⟨s, Snapshot.inStep_of_ofWays h⟩

/-- The restrictions that the edges of a way carry, read off its first edge. -/
def restrictionsOn (g : Network α) {way : Ident} {w : Way α} (h : g.way? way = some w) :
    List (Restriction α) :=
  ((g.edgesOf way).head (g.inStep.edgesOf_ne_nil h)).restrictions

end Network

end RoadRules
