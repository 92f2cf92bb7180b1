import RoadRules.Network.Basic
import RoadRules.Proofs.OrderedMap

set_option autoImplicit false

/-! # Views of a network

What a network answers is read from several tables: the rows of the graph, the edges under their
ways, the ways. As long as the tables are in step, each answer is the part of the list of all edges
that it should be, and this is the form in which it is used from here on. The lemmas about single
tables come first: a row holds the edges that were put into it, group after group. -/

namespace RoadRules

variable {γ α : Type}

/-! ## Rows -/

/-- The edges of a list, with those that end at the same node next to each other; the nodes come
in the order in which the list first reaches them. -/
def Network.byTarget (es : List (Edge α)) : List (Edge α) :=
  (es.map fun e => e.target).eraseDups.flatMap fun t => es.filter fun e => e.target == t

namespace AdjacencyRow

variable {es : List (Edge α)} {target : Ident}

theorem keys_ofEdges (es : List (Edge α)) :
    (ofEdges es).keys = (es.map fun e => e.target).eraseDups :=
  OrderedMap.keys_foldl_alter (fun e : Edge α => e.target)
    (fun e (keyed : Option (OrderedMap Nat (Edge α))) => (keyed.getD .empty).insert e.id e) es

/-- Under a node where edges end a row has just these edges, under their numbers. -/
theorem entries_get?_ofEdges (h : (es.map Edge.id).Nodup) (target : Ident) :
    (((ofEdges es).get? target).getD .empty).entries =
      (es.filter fun e => e.target == target).map fun e => (e.id, e) := by
  induction es using List.reverseRecOn with
  | nil => rfl
  | append_singleton es e ih =>
      rw [List.map_append, List.nodup_append] at h
      obtain ⟨hes, -, hdistinct⟩ := h
      rw [ofEdges_concat, addEdge, OrderedMap.alter, OrderedMap.get?_insert, List.filter_append]
      by_cases htarget : target = e.target
      · -- The number of the new edge is not among those that stand under its target.
        have hnew : e.id ∉ (((ofEdges es).get? e.target).getD .empty).keys := by
          unfold OrderedMap.keys
          rw [← htarget, ih hes, List.map_map]
          intro hmem
          obtain ⟨f, hf, hid⟩ := List.mem_map.mp hmem
          exact hdistinct e.id (List.mem_map.mpr ⟨f, (List.mem_filter.mp hf).1, hid⟩) e.id
            (List.mem_singleton_self _) rfl
        rw [if_pos htarget, Option.getD_some, OrderedMap.entries_insert hnew, ← htarget, ih hes]
        simp [htarget]
      · have hother : ¬ e.target = target := Ne.symm htarget
        rw [if_neg htarget, ih hes]
        simp [hother]

theorem edgesTo_eq (row : AdjacencyRow α) (target : Ident) :
    row.edgesTo target = ((row.get? target).getD .empty).values := by
  unfold edgesTo
  cases row.get? target <;> rfl

theorem edgesTo_ofEdges (h : (es.map Edge.id).Nodup) (target : Ident) :
    (ofEdges es).edgesTo target = es.filter fun e => e.target == target := by
  rw [edgesTo_eq, OrderedMap.values, entries_get?_ofEdges h, List.map_map]
  exact List.map_id _

/-- The edges of a row are those to one node after the other. -/
theorem edges_eq_flatMap (row : AdjacencyRow α) :
    row.edges = row.keys.flatMap row.edgesTo := by
  unfold edges OrderedMap.values OrderedMap.keys
  rw [List.flatMap_map, List.flatMap_map]
  refine List.flatMap_congr fun entry hentry => ?_
  rw [edgesTo_eq, OrderedMap.get?_eq_some_iff.mpr hentry]
  rfl

/-- **A row lists the edges that were put into it**, grouped by their targets. -/
theorem edges_ofEdges (h : (es.map Edge.id).Nodup) :
    (ofEdges es).edges = Network.byTarget es := by
  rw [edges_eq_flatMap, keys_ofEdges, funext (edgesTo_ofEdges h)]
  rfl

end AdjacencyRow

/-! ## Numbers -/

namespace Edge

variable {es : List (Edge α)} {ls : List (Link α)}

/-- Whether edges come in the order of their numbers, each once. -/
def Ascending (es : List (Edge α)) : Prop := es.Pairwise fun e f => e.id < f.id

theorem nodup_of_ascending (h : Ascending es) : es.Nodup := by
  unfold Ascending at h
  refine h.imp ?_
  rintro e _ hlt rfl
  exact Nat.lt_irrefl _ hlt

/-- Edges whose numbers are their places have ascending numbers. -/
theorem ascending_of_map_id (h : es.map Edge.id = List.range es.length) : Ascending es :=
  List.pairwise_map.mp (h ▸ List.pairwise_lt_range)

/-- Edges whose numbers are their places are what numbering their links makes. -/
theorem eq_number (h : es.map Edge.id = List.range es.length) :
    es = number 0 (es.map Edge.toLink) := by
  have key : ∀ (es : List (Edge α)) (first : Nat),
      es.map Edge.id = List.range' first es.length → es = number first (es.map Edge.toLink) := by
    intro es
    induction es with
    | nil => exact fun _ _ => rfl
    | cons e rest ih =>
        intro first hids
        rw [List.map_cons, List.length_cons, List.range'_succ, List.cons.injEq] at hids
        rw [List.map_cons, number, ← ih (first + 1) hids.2, ← hids.1]
  exact key es 0 (h.trans List.range_eq_range')

end Edge

/-! ## Snapshots -/

namespace Snapshot

/-- The ways under which edges are put are the owners of the edges. -/
theorem keys_foldl_enter (es : List (Edge α)) :
    (es.foldl enter .empty).keys = (es.map fun e => e.way).eraseDups :=
  OrderedMap.keys_foldl_alter (fun e : Edge α => e.way)
    (fun e (before : Option (List (Edge α))) => before.getD [] ++ [e]) es

variable [Multigraph γ α] {s : Snapshot γ α}

namespace InStep

variable (h : s.InStep)

include h

theorem number : s.edges.map Edge.id = List.range s.edges.length := by
  obtain ⟨d, hd, rfl⟩ := h
  exact hd.number

theorem closed : ∀ e ∈ s.edges, e.source ∈ s.nodes.keys ∧ e.target ∈ s.nodes.keys := by
  obtain ⟨d, hd, rfl⟩ := h
  exact hd.closed

theorem ascending : Edge.Ascending s.edges := Edge.ascending_of_map_id h.number

theorem nodup_id : (s.edges.map Edge.id).Nodup := h.number ▸ List.nodup_range

/-- **The nodes** are the ends of the edges. -/
theorem mem_nodes_iff {id : Ident} :
    id ∈ s.nodes.keys ↔ ∃ e ∈ s.edges, e.source = id ∨ e.target = id := by
  constructor
  · obtain ⟨d, hd, rfl⟩ := h
    exact hd.reached id
  · rintro ⟨e, he, rfl | rfl⟩
    · exact (h.closed e he).1
    · exact (h.closed e he).2

/-- The row of a node has the edges that leave the node. -/
theorem row_eq (id : Ident) :
    Multigraph.row s.graph id = AdjacencyRow.ofEdges (s.edges.filter fun e => e.source == id) := by
  obtain ⟨d, hd, rfl⟩ := h
  exact hd.row id

theorem nodup_id_filter (p : Edge α → Bool) : ((s.edges.filter p).map Edge.id).Nodup :=
  h.nodup_id.sublist (List.filter_sublist.map Edge.id)

/-- **The edges that leave a node** are those among all edges, grouped by the nodes where they
end. -/
theorem outEdges_eq (id : Ident) :
    s.outEdges id = Network.byTarget (s.edges.filter fun e => e.source == id) := by
  unfold outEdges
  rw [h.row_eq, AdjacencyRow.edges_ofEdges (h.nodup_id_filter _)]
  split
  · rfl
  · rename_i hno
    have hnone : (s.edges.filter fun e => e.source == id) = [] := by
      refine List.filter_eq_nil_iff.mpr fun e he hsource => hno ?_
      unfold hasNode
      rw [OrderedMap.contains_iff, ← beq_iff_eq.mp hsource]
      exact (h.closed e he).1
    rw [hnone]
    rfl

/-- **The edges between two nodes** are those among all edges. -/
theorem edgesBetween_eq (source target : Ident) :
    s.edgesBetween source target =
      s.edges.filter fun e => e.source == source && e.target == target := by
  unfold edgesBetween
  rw [h.row_eq, AdjacencyRow.edgesTo_ofEdges (h.nodup_id_filter _), List.filter_filter]
  exact List.filter_congr fun e _ => Bool.and_comm _ _

theorem owners_eq : s.owners = (s.edges.map fun e => e.way).eraseDups := by
  obtain ⟨d, -, rfl⟩ := h
  exact keys_foldl_enter d.edges

theorem mem_edgesOf {e : Edge α} {way : Ident} :
    e ∈ s.edgesOf way ↔ e ∈ s.edges ∧ e.way = way := by
  rw [h.edgesOf_eq, List.mem_filter, beq_iff_eq]

theorem edgesOf_ne_nil_iff {way : Ident} : s.edgesOf way ≠ [] ↔ ∃ e ∈ s.edges, e.way = way := by
  rw [h.edgesOf_eq, ne_eq, List.filter_eq_nil_iff]
  push Not
  simp only [beq_iff_eq]

theorem mem_owners {way : Ident} : way ∈ s.owners ↔ s.edgesOf way ≠ [] := by
  rw [h.owners_eq, List.mem_eraseDups, List.mem_map, h.edgesOf_ne_nil_iff]

/-- **The ways** are those that own edges. -/
theorem mem_ways_iff {way : Ident} : way ∈ s.ways.keys ↔ s.edgesOf way ≠ [] := by
  rw [h.edgesOf_ne_nil_iff]
  obtain ⟨d, hd, rfl⟩ := h
  exact ⟨hd.owned way, fun ⟨e, he, howner⟩ => howner ▸ hd.way e he⟩

/-- The counts are those of the tables, and of the edges with restrictions. -/
theorem statistics_eq :
    s.statistics =
      { nodes := s.nodes.size
        edges := s.edges.length
        ways := s.ways.size
        skipped := s.statistics.skipped
        restricted := s.edges.countP fun e => !e.restrictions.isEmpty } := by
  obtain ⟨d, hd, rfl⟩ := h
  rw [List.countP_eq_length_filter]
  exact congrArg (Statistics.mk _ _ _ _) hd.restricted

end InStep

end Snapshot

/-! ## Networks -/

namespace Network

variable {es : List (Edge α)} {g : Network α} {e : Edge α} {id way : Ident}

/-- Grouping edges by their ends neither loses nor adds one. -/
theorem mem_byTarget : e ∈ byTarget es ↔ e ∈ es := by
  simp only [byTarget, List.mem_flatMap, List.mem_eraseDups, List.mem_map, List.mem_filter,
    beq_iff_eq]
  constructor
  · rintro ⟨_, -, he, -⟩
    exact he
  · exact fun he => ⟨e.target, ⟨e, he, rfl⟩, he, rfl⟩

theorem mem_outEdges : e ∈ g.outEdges id ↔ e ∈ g.edges ∧ e.source = id := by
  rw [g.inStep.outEdges_eq, mem_byTarget, List.mem_filter, beq_iff_eq]

theorem mem_edgesOf : e ∈ g.edgesOf way ↔ e ∈ g.edges ∧ e.way = way := g.inStep.mem_edgesOf

end Network

end RoadRules
