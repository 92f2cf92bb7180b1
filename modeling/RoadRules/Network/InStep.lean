import RoadRules.Fallible
import RoadRules.Network.Draft

set_option autoImplicit false

/-! # Drafts whose tables are in step

The tables of a draft are filled independently of each other, and nothing but the order of the steps
keeps them together. `Draft.InStep` says what they have to do with each other while a network is
being built, and `Draft.Settled` what holds besides whenever a way is done. Every step preserves the
one (`InStep.addNode`, `InStep.addLink`), every way the other (`Settled.enter`), and so the draft of
any list of ways is settled (`Draft.settled_of_ofWays`). -/

namespace RoadRules

open Multigraph

/-! ## Links of a way -/

namespace Link

variable {α : Type} [Geometry α] {m : TagMapper} {metric : Metric}
  {restrictionsOf : Ident → List (Restriction α)} {w : Way α} {ls : List (Link α)} {l : Link α}

/-- The links of a way, segment after segment. -/
def ofWay (m : TagMapper) (metric : Metric) (restrictionsOf : Ident → List (Restriction α))
    (w : Way α) : Except Fault (List (Link α)) := do
  let attributes ← m.attributes w.scalarTags
  let links ← w.segments.mapM fun s =>
    ofSegment metric w.id attributes (restrictionsOf w.id) s.1 s.2
  return links.flatten

/-- Whether a link runs between two nodes. -/
def Joins (l : Link α) (a b : Node α) : Prop :=
  (l.source = a.id ∧ l.target = b.id) ∨ (l.source = b.id ∧ l.target = a.id)

/-- A segment has links, all of which run between its nodes and belong to its way. -/
theorem of_ofSegment {way : Ident} {attributes : WayAttributes α} {rs : List (Restriction α)}
    {a b : Node α} (h : ofSegment metric way attributes rs a b = .ok ls) :
    ls ≠ [] ∧ ∀ l ∈ ls, l.way = way ∧ l.Joins a b := by
  unfold ofSegment at h
  obtain ⟨length, -, h⟩ := bind_eq_ok.mp h
  split at h
  · cases h
  · cases h
    cases attributes.direction <;>
      simp [Direction.allowsForward, Direction.allowsBackward, Joins]

/-- The links of a way come from its segments. -/
theorem ofWay_eq_ok_iff_mapM :
    ofWay m metric restrictionsOf w = .ok ls ↔
      ∃ attributes lss, m.attributes w.scalarTags = .ok attributes ∧
        (w.segments.mapM fun s =>
          ofSegment metric w.id attributes (restrictionsOf w.id) s.1 s.2) = .ok lss ∧
        lss.flatten = ls := by
  unfold ofWay
  rw [bind_eq_ok]
  refine exists_congr fun attributes => ?_
  rw [bind_eq_ok, exists_and_left]
  refine and_congr_right fun _ => exists_congr fun lss => and_congr_right fun _ => ?_
  exact ⟨Except.ok.inj, congrArg Except.ok⟩

/-- A link of a way belongs to the way and runs between nodes of it. -/
theorem ends_of_mem_ofWay (h : ofWay m metric restrictionsOf w = .ok ls) (hl : l ∈ ls) :
    l.way = w.id ∧ (∃ n ∈ w.nodes, n.id = l.source) ∧ ∃ n ∈ w.nodes, n.id = l.target := by
  obtain ⟨attributes, lss, -, hlss, rfl⟩ := ofWay_eq_ok_iff_mapM.mp h
  obtain ⟨links, hlinks, hl⟩ := List.mem_flatten.mp hl
  obtain ⟨s, hs, hof⟩ := exists_of_mem_mapM hlss hlinks
  obtain ⟨h1, h2⟩ := Way.mem_nodes_of_mem_segments hs
  obtain ⟨hway, ⟨hsource, htarget⟩ | ⟨hsource, htarget⟩⟩ := (of_ofSegment hof).2 l hl
  · exact ⟨hway, ⟨s.1, h1, hsource.symm⟩, ⟨s.2, h2, htarget.symm⟩⟩
  · exact ⟨hway, ⟨s.2, h2, hsource.symm⟩, ⟨s.1, h1, htarget.symm⟩⟩

/-- Every node of a way with a segment is an end of a link of the way. -/
theorem exists_mem_ofWay_of_mem_nodes (h : ofWay m metric restrictionsOf w = .ok ls)
    (hlength : 2 ≤ w.nodes.length) {n : Node α} (hn : n ∈ w.nodes) :
    ∃ l ∈ ls, l.source = n.id ∨ l.target = n.id := by
  obtain ⟨attributes, lss, -, hlss, rfl⟩ := ofWay_eq_ok_iff_mapM.mp h
  obtain ⟨s, hs, hend⟩ := Way.exists_mem_steps hlength hn
  obtain ⟨links, hlinks, hof⟩ := exists_mem_of_mapM hlss hs
  obtain ⟨hne, hjoins⟩ := of_ofSegment hof
  obtain ⟨l, hl⟩ := List.exists_mem_of_ne_nil _ hne
  refine ⟨l, List.mem_flatten.mpr ⟨links, hlinks, hl⟩, ?_⟩
  obtain ⟨-, ⟨hsource, htarget⟩ | ⟨hsource, htarget⟩⟩ := hjoins l hl <;>
    rcases hend with rfl | rfl
  · exact Or.inl hsource
  · exact Or.inr htarget
  · exact Or.inr htarget
  · exact Or.inl hsource

theorem ne_nil_of_ofWay (h : ofWay m metric restrictionsOf w = .ok ls)
    (hlength : 2 ≤ w.nodes.length) : ls ≠ [] := by
  obtain ⟨n, hn⟩ := List.exists_mem_of_length_pos (Nat.lt_of_lt_of_le Nat.zero_lt_two hlength)
  obtain ⟨l, hl, -⟩ := exists_mem_ofWay_of_mem_nodes h hlength hn
  exact List.ne_nil_of_mem hl

end Link

namespace Draft

variable {γ α : Type} [Multigraph γ α] {d : Draft γ α} {n : Node α} {l : Link α} {w : Way α}
  {ls : List (Link α)}

/-- The nodes that a draft has so far. -/
def nodes (d : Draft γ α) : OrderedMap Ident (Node α) := Multigraph.nodes d.graph

/-- Whether the tables of a draft are in step with each other. -/
structure InStep (d : Draft γ α) : Prop where
  /-- The number of an edge is its place. -/
  number : d.edges.map Edge.id = List.range d.edges.length
  /-- The ends of an edge are nodes. -/
  closed : ∀ e ∈ d.edges, e.source ∈ d.nodes.keys ∧ e.target ∈ d.nodes.keys
  /-- A node has the edges that leave it in its row. -/
  row : ∀ id, row d.graph id = AdjacencyRow.ofEdges (d.edges.filter fun e => e.source == id)
  /-- The way of an edge is known. -/
  way : ∀ e ∈ d.edges, e.way ∈ d.ways.keys
  restricted : d.restricted = (d.edges.filter fun e => !e.restrictions.isEmpty).length

/-- Whether besides every node and every way has an edge. -/
structure Settled (d : Draft γ α) : Prop extends d.InStep where
  reached : ∀ id ∈ d.nodes.keys, ∃ e ∈ d.edges, e.source = id ∨ e.target = id
  owned : ∀ id ∈ d.ways.keys, ∃ e ∈ d.edges, e.way = id

/-! ## Single steps -/

@[simp] theorem edges_addNode : (d.addNode n).edges = d.edges := by
  unfold addNode
  split <;> rfl

@[simp] theorem ways_addNode : (d.addNode n).ways = d.ways := by
  unfold addNode
  split <;> rfl

@[simp] theorem skipped_addNode : (d.addNode n).skipped = d.skipped := by
  unfold addNode
  split <;> rfl

@[simp] theorem restricted_addNode : (d.addNode n).restricted = d.restricted := by
  unfold addNode
  split <;> rfl

@[simp] theorem edges_foldl_addNode (ns : List (Node α)) :
    (ns.foldl addNode d).edges = d.edges := by
  induction ns generalizing d with
  | nil => rfl
  | cons n rest ih => rw [List.foldl_cons, ih, edges_addNode]

@[simp] theorem ways_foldl_addNode (ns : List (Node α)) : (ns.foldl addNode d).ways = d.ways := by
  induction ns generalizing d with
  | nil => rfl
  | cons n rest ih => rw [List.foldl_cons, ih, ways_addNode]

@[simp] theorem skipped_foldl_addNode (ns : List (Node α)) :
    (ns.foldl addNode d).skipped = d.skipped := by
  induction ns generalizing d with
  | nil => rfl
  | cons n rest ih => rw [List.foldl_cons, ih, skipped_addNode]

@[simp] theorem skipped_foldl_addLink (ls : List (Link α)) :
    (ls.foldl addLink d).skipped = d.skipped := by
  induction ls generalizing d with
  | nil => rfl
  | cons l rest ih => exact ih

@[simp] theorem ways_foldl_addLink (ls : List (Link α)) :
    (ls.foldl addLink d).ways = d.ways := by
  induction ls generalizing d with
  | nil => rfl
  | cons l rest ih => exact ih

/-- Links are numbered from the number of edges on. -/
theorem edges_foldl_addLink (ls : List (Link α)) :
    (ls.foldl addLink d).edges = d.edges ++ Edge.number d.edges.length ls := by
  induction ls generalizing d with
  | nil => exact (List.append_nil _).symm
  | cons l rest ih =>
    rw [List.foldl_cons, ih]
    simp only [addLink, Edge.number, List.length_append, List.length_singleton,
      List.append_assoc, List.singleton_append]

variable [LawfulMultigraph γ]

theorem keys_addNode {id : Ident} :
    id ∈ (d.addNode n).nodes.keys ↔ id = n.id ∨ id ∈ d.nodes.keys := by
  unfold addNode
  split
  · rename_i hthere
    refine ⟨Or.inr, ?_⟩
    rintro (rfl | h)
    · exact (OrderedMap.contains_iff _ _).mp hthere
    · exact h
  · show _ ∈ (Multigraph.nodes (Multigraph.addNode d.graph n)).keys ↔ _
    rw [LawfulMultigraph.nodes_addNode, OrderedMap.mem_keys_insert]
    rfl

theorem keys_foldl_addNode {id : Ident} (ns : List (Node α)) :
    id ∈ (ns.foldl addNode d).nodes.keys ↔ (∃ n ∈ ns, n.id = id) ∨ id ∈ d.nodes.keys := by
  induction ns generalizing d with
  | nil => simp
  | cons n rest ih =>
    rw [List.foldl_cons, ih, keys_addNode]
    simp only [List.mem_cons, exists_eq_or_imp]
    constructor
    · rintro (h | rfl | h)
      · exact Or.inl (Or.inr h)
      · exact Or.inl (Or.inl rfl)
      · exact Or.inr h
    · rintro ((rfl | h) | h)
      · exact Or.inr (Or.inl rfl)
      · exact Or.inl h
      · exact Or.inr (Or.inr h)

/-- A link between nodes of a draft brings no node. -/
theorem nodes_addLink (hsource : l.source ∈ d.nodes.keys) (htarget : l.target ∈ d.nodes.keys) :
    (d.addLink l).nodes = d.nodes :=
  LawfulMultigraph.nodes_addEdge _ _ hsource htarget

theorem nodes_foldl_addLink
    (hls : ∀ l ∈ ls, l.source ∈ d.nodes.keys ∧ l.target ∈ d.nodes.keys) :
    (ls.foldl addLink d).nodes = d.nodes := by
  induction ls generalizing d with
  | nil => rfl
  | cons l rest ih =>
    obtain ⟨⟨hsource, htarget⟩, hrest⟩ := List.forall_mem_cons.mp hls
    have hnodes := nodes_addLink hsource htarget
    rw [List.foldl_cons, ih (hnodes ▸ hrest), hnodes]

theorem row_addNode (id : Ident) : row (d.addNode n).graph id = row d.graph id := by
  unfold addNode
  split
  · rfl
  · exact LawfulMultigraph.row_addNode _ _ _

/-! ## Tables that stay in step -/

theorem settled_empty : (empty : Draft γ α).Settled where
  number := rfl
  closed := nofun
  row id := by
    show row (Multigraph.empty : γ) id = _
    exact LawfulMultigraph.row_empty id
  way := nofun
  restricted := rfl
  reached := by
    show ∀ id ∈ (Multigraph.nodes (Multigraph.empty : γ)).keys, _
    rw [LawfulMultigraph.nodes_empty]
    exact nofun
  owned := nofun

theorem InStep.addNode (h : d.InStep) : (d.addNode n).InStep where
  number := by simpa using h.number
  closed e he := by
    rw [edges_addNode] at he
    obtain ⟨hsource, htarget⟩ := h.closed e he
    exact ⟨keys_addNode.mpr (Or.inr hsource), keys_addNode.mpr (Or.inr htarget)⟩
  row id := by rw [row_addNode, h.row, edges_addNode]
  way := by simpa using h.way
  restricted := by simpa using h.restricted

theorem InStep.foldl_addNode (h : d.InStep) (ns : List (Node α)) :
    (ns.foldl Draft.addNode d).InStep := by
  induction ns generalizing d with
  | nil => exact h
  | cons n rest ih => exact ih h.addNode

omit [LawfulMultigraph γ] in
theorem InStep.addWayEntry (h : d.InStep) : (d.addWayEntry w).InStep where
  number := h.number
  closed := h.closed
  row := h.row
  way e he := OrderedMap.mem_keys_insert.mpr (Or.inr (h.way e he))
  restricted := h.restricted

/-- **A link keeps the tables in step** if its ends are there and its way is known. -/
theorem InStep.addLink (h : d.InStep) (hsource : l.source ∈ d.nodes.keys)
    (htarget : l.target ∈ d.nodes.keys) (hway : l.way ∈ d.ways.keys) :
    (d.addLink l).InStep where
  number := by
    simp only [Draft.addLink, List.map_append, h.number, List.map_cons, List.map_nil,
      List.length_append, List.length_singleton, List.range_succ]
  closed e he := by
    rw [nodes_addLink hsource htarget]
    rcases List.mem_append.mp he with he | he
    · exact h.closed e he
    · cases List.mem_singleton.mp he
      exact ⟨hsource, htarget⟩
  row id := by
    simp only [Draft.addLink, LawfulMultigraph.row_addEdge, List.filter_append, h.row]
    by_cases hid : l.source = id
    · simp only [hid, if_true, List.filter_cons, beq_self_eq_true, List.filter_nil,
        AdjacencyRow.ofEdges_concat]
    · simp only [hid, if_false, List.filter_cons, beq_iff_eq, List.filter_nil, List.append_nil]
  way e he := by
    rcases List.mem_append.mp he with he | he
    · exact h.way e he
    · cases List.mem_singleton.mp he
      exact hway
  restricted := by
    simp only [Draft.addLink, List.filter_append, List.length_append, h.restricted]
    by_cases hfree : l.restrictions.isEmpty = true
    · simp only [hfree, if_true, List.filter_cons, Bool.not_true, Bool.false_eq_true, if_false,
        List.filter_nil, List.length_nil, Nat.add_zero]
    · simp only [hfree, if_false, List.filter_cons, Bool.not_false, if_true, Bool.false_eq_true,
        List.filter_nil, List.length_singleton]

/-- **Links keep the tables in step.** -/
theorem InStep.foldl_addLink (h : d.InStep)
    (hends : ∀ l ∈ ls, l.source ∈ d.nodes.keys ∧ l.target ∈ d.nodes.keys)
    (hway : ∀ l ∈ ls, l.way ∈ d.ways.keys) : (ls.foldl Draft.addLink d).InStep := by
  induction ls generalizing d with
  | nil => exact h
  | cons l rest ih =>
    obtain ⟨⟨hsource, htarget⟩, hrest⟩ := List.forall_mem_cons.mp hends
    obtain ⟨hown, hways⟩ := List.forall_mem_cons.mp hway
    exact ih (h.addLink hsource htarget hown) (nodes_addLink hsource htarget ▸ hrest) hways

/-! ## Whole ways -/

omit [LawfulMultigraph γ] in
theorem Settled.skip (h : d.Settled) : d.skip.Settled where
  number := h.number
  closed := h.closed
  row := h.row
  way := h.way
  restricted := h.restricted
  reached := h.reached
  owned := h.owned

/-- The draft after a way with the given links. -/
def enter (d : Draft γ α) (w : Way α) (ls : List (Link α)) : Draft γ α :=
  ls.foldl addLink (w.nodes.foldl addNode (d.addWayEntry w))

/-- Whether links belong to a way and run between its nodes. -/
def LinksOn (w : Way α) (ls : List (Link α)) : Prop :=
  ∀ l ∈ ls, l.way = w.id ∧ (∃ n ∈ w.nodes, n.id = l.source) ∧ ∃ n ∈ w.nodes, n.id = l.target

section Enter

omit [LawfulMultigraph γ]

theorem edges_enter (d : Draft γ α) (w : Way α) (ls : List (Link α)) :
    (d.enter w ls).edges = d.edges ++ Edge.number d.edges.length ls := by
  unfold enter
  rw [edges_foldl_addLink, edges_foldl_addNode]
  rfl

theorem ways_enter (d : Draft γ α) (w : Way α) (ls : List (Link α)) :
    (d.enter w ls).ways = d.ways.insert w.id w := by
  unfold enter
  rw [ways_foldl_addLink, ways_foldl_addNode]
  rfl

theorem skipped_enter (d : Draft γ α) (w : Way α) (ls : List (Link α)) :
    (d.enter w ls).skipped = d.skipped := by
  unfold enter
  rw [skipped_foldl_addLink, skipped_foldl_addNode]
  rfl

end Enter

theorem ends_of_linksOn (hls : LinksOn w ls) :
    ∀ l ∈ ls, l.source ∈ (w.nodes.foldl addNode (d.addWayEntry w)).nodes.keys ∧
      l.target ∈ (w.nodes.foldl addNode (d.addWayEntry w)).nodes.keys := fun l hl =>
  ⟨(keys_foldl_addNode _).mpr (Or.inl (hls l hl).2.1),
    (keys_foldl_addNode _).mpr (Or.inl (hls l hl).2.2)⟩

theorem nodes_enter (hls : LinksOn w ls) :
    (d.enter w ls).nodes = (w.nodes.foldl addNode (d.addWayEntry w)).nodes :=
  nodes_foldl_addLink (ends_of_linksOn hls)

/-- **A way keeps a draft settled** if its links run between its nodes and reach all of them. -/
theorem Settled.enter (h : d.Settled) (hls : LinksOn w ls)
    (hreach : ∀ n ∈ w.nodes, ∃ l ∈ ls, l.source = n.id ∨ l.target = n.id) (hne : ls ≠ []) :
    (d.enter w ls).Settled := by
  have hstep : (d.enter w ls).InStep :=
    (h.addWayEntry.foldl_addNode w.nodes).foldl_addLink (ends_of_linksOn hls) fun l hl => by
      rw [ways_foldl_addNode, (hls l hl).1]
      exact OrderedMap.mem_keys_insert.mpr (Or.inl rfl)
  have hold : ∀ e ∈ d.edges, e ∈ (d.enter w ls).edges := fun e he =>
    edges_enter d w ls ▸ List.mem_append_left _ he
  -- Each link is one of the new edges.
  have hnew : ∀ l ∈ ls, ∃ e ∈ (d.enter w ls).edges, e.toLink = l := by
    intro l hl
    rw [← Edge.map_toLink_number d.edges.length ls] at hl
    obtain ⟨e, he, rfl⟩ := List.mem_map.mp hl
    exact ⟨e, edges_enter d w ls ▸ List.mem_append_right _ he, rfl⟩
  refine { hstep with reached := fun id hid => ?_, owned := fun id hid => ?_ }
  · rw [nodes_enter hls] at hid
    rcases (keys_foldl_addNode _).mp hid with ⟨n, hn, rfl⟩ | hid
    · obtain ⟨l, hl, hend⟩ := hreach n hn
      obtain ⟨e, he, rfl⟩ := hnew l hl
      exact ⟨e, he, hend⟩
    · obtain ⟨e, he, hend⟩ := h.reached id hid
      exact ⟨e, hold e he, hend⟩
  · rw [ways_enter, OrderedMap.mem_keys_insert] at hid
    rcases hid with rfl | hid
    · obtain ⟨l, hl⟩ := List.exists_mem_of_ne_nil _ hne
      obtain ⟨e, he, rfl⟩ := hnew l hl
      exact ⟨e, he, (hls _ hl).1⟩
    · obtain ⟨e, he, hway⟩ := h.owned id hid
      exact ⟨e, hold e he, hway⟩

/-! ## Runs -/

section Runs

variable [Geometry α] {m : TagMapper} {metric : Metric}
  {restrictionsOf : Ident → List (Restriction α)} {ws : List (Way α)}

omit [LawfulMultigraph γ] in
/-- **What a way does to a draft**: its links are made, unless it is skipped. -/
theorem addWay_eq (d : Draft γ α) (w : Way α) :
    addWay m metric restrictionsOf d w =
      if w.takesPart m then (Link.ofWay m metric restrictionsOf w).map (d.enter w)
      else .ok d.skip := by
  unfold addWay Link.ofWay
  split
  · cases (m.attributes w.scalarTags : Except Fault (WayAttributes α)) with
    | error f => rfl
    | ok attributes =>
      have hsegment : (addSegment (γ := γ) metric w.id attributes (restrictionsOf w.id)) =
          fun d s => (Link.ofSegment metric w.id attributes (restrictionsOf w.id) s.1 s.2).map
            fun ls => ls.foldl addLink d := by
        funext d s
        unfold addSegment
        cases Link.ofSegment metric w.id attributes (restrictionsOf w.id) s.1 s.2 <;> rfl
      change w.segments.foldlM _ _ = Except.map _ (w.segments.mapM (fun s =>
        Link.ofSegment metric w.id attributes (restrictionsOf w.id) s.1 s.2) >>= _)
      rw [hsegment, foldlM_map]
      cases w.segments.mapM fun s =>
          Link.ofSegment metric w.id attributes (restrictionsOf w.id) s.1 s.2 with
      | error f => rfl
      | ok lss =>
        show Except.ok _ = Except.ok (lss.flatten.foldl addLink _)
        rw [List.foldl_flatten]
  · rfl

/-- **A way keeps a draft settled.** -/
theorem settled_of_addWay {d' : Draft γ α} (hd : d.Settled)
    (h : addWay m metric restrictionsOf d w = .ok d') : d'.Settled := by
  rw [addWay_eq] at h
  split at h
  · rename_i htakes
    obtain ⟨ls, hls, rfl⟩ := map_eq_ok.mp h
    have hlength := Way.length_of_takesPart htakes
    exact hd.enter (fun l hl => Link.ends_of_mem_ofWay hls hl)
      (fun n hn => Link.exists_mem_ofWay_of_mem_nodes hls hlength hn)
      (Link.ne_nil_of_ofWay hls hlength)
  · cases h
    exact hd.skip

/-- **The draft of a list of ways is settled.** -/
theorem settled_of_ofWays (h : ofWays m metric restrictionsOf ws = .ok d) : d.Settled :=
  foldlM_preserves (fun _ _ _ hd hstep => settled_of_addWay hd hstep) settled_empty h

end Runs

end Draft

end RoadRules
