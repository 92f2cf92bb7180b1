import RoadRules.Proofs.Cut
import RoadRules.Proofs.Network.Built
import RoadRules.Proofs.Number.Rational
import RoadRules.Proofs.Travel.Path

set_option autoImplicit false

/-! # The network of a list of ways

Which network is built from which ways. A network can be built just when the ways that take part can
be measured (`Network.exists_ofWays_iff`), and then its edges are the links of these ways, one
segment after the other, with the numbers from zero on. The tables of a network are filled
separately, edge by edge, and looked at separately; that they agree with the edges all the same
(`Snapshot.Agrees`) follows from their being in step, whichever container holds the graph, as long
as it obeys the laws of one (`Snapshot.ofWays_reference`). -/

namespace RoadRules

/-! ## Lists -/

theorem nodup_eraseDups {β : Type} [DecidableEq β] (l : List β) : l.eraseDups.Nodup := by
  match l with
  | [] => exact List.nodup_nil
  | a :: rest =>
      rw [List.eraseDups_cons, List.nodup_cons]
      refine ⟨?_, nodup_eraseDups _⟩
      simp [List.mem_eraseDups]
termination_by l.length
decreasing_by
  have hle := List.length_filter_le (fun b => !b == a) rest
  simp only [List.length_cons]
  omega

/-- Two lists without duplicates that have the same members are equally long. -/
theorem length_eq_of_nodup {β : Type} {l l' : List β} (hl : l.Nodup) (hl' : l'.Nodup)
    (h : ∀ a, a ∈ l ↔ a ∈ l') : l.length = l'.length :=
  ((List.perm_ext_iff_of_nodup hl hl').mpr h).length_eq

variable {α : Type}

variable [Geometry α] {m : TagMapper} {metric : Metric} {ws : List (Way α)}
  {restrictionsOf : Ident → List (Restriction α)}

/-! ## Measures -/

/-- The numbers by which the ways that take part are measured. -/
structure Measures (m : TagMapper) (metric : Metric) (ws : List (Way α)) where
  /-- What the lengths on a way are divided by. -/
  factor : Way α → α
  /-- The length of a segment. -/
  length : Node α × Node α → α
  factor_eq : ∀ w ∈ ws, w.takesPart m = true →
    m.speedFactor (TagMapper.category w.scalarTags) = .ok (factor w)
  factor_ne_zero : ∀ w ∈ ws, w.takesPart m = true → Quantity.isZero (factor w) = false
  length_eq : ∀ w ∈ ws, w.takesPart m = true → ∀ s ∈ w.segments,
    Geometry.distance metric s.1 s.2 = .ok (length s)
  /-- The speeds of the categories are read too. -/
  exists_speed : ∀ w ∈ ws, w.takesPart m = true →
    ∃ v : α, m.categorySpeed (TagMapper.category w.scalarTags) = .ok v

namespace Measures

variable (x : Measures m metric ws) (restrictionsOf)

/-- The links of a segment of a way: the one along the nodes unless the way may only be travelled
against them, then the one against the nodes unless it may only be travelled along them. -/
def linksOn (w : Way α) (s : Node α × Node α) : List (Link α) :=
  let direction := TagMapper.direction w.scalarTags
  let link (source target : Node α) (forward : Bool) : Link α :=
    { source := source.id, target := target.id, way := w.id
      cost := x.length s / x.factor w, length := x.length s
      restrictions := restrictionsOf w.id
      bidirectional := decide (direction = .both), forward := forward }
  (if direction = .reverse then [] else [link s.1 s.2 true]) ++
    (if direction = .forward then [] else [link s.2 s.1 false])

/-- The links of a way, segment after segment. -/
def links (w : Way α) : List (Link α) := w.segments.flatMap (x.linksOn restrictionsOf w)

/-- The links of all ways that take part. -/
def allLinks : List (Link α) :=
  (ws.filter (·.takesPart m)).flatMap (x.links restrictionsOf)

variable {restrictionsOf} {w : Way α} {l : Link α}

theorem linksOn_eq {attributes : WayAttributes α} {s : Node α × Node α}
    (hdirection : attributes.direction = TagMapper.direction w.scalarTags)
    (hfactor : attributes.speedFactor = x.factor w) :
    attributes.direction.permitted.map
        (Link.ofStep w.id attributes (restrictionsOf w.id) s.1 s.2 (x.length s)) =
      x.linksOn restrictionsOf w s := by
  unfold linksOn Link.ofStep
  rw [hfactor, hdirection]
  cases TagMapper.direction w.scalarTags <;> rfl

/-- **The links of a way that is measured.** -/
theorem ofWay_eq (hw : w ∈ ws) (htakes : w.takesPart m = true) :
    Link.ofWay m metric restrictionsOf w = .ok (x.links restrictionsOf w) := by
  obtain ⟨v, hv⟩ := x.exists_speed w hw htakes
  have hattributes : ∃ attributes : WayAttributes α, m.attributes w.scalarTags = .ok attributes ∧
      attributes.direction = TagMapper.direction w.scalarTags ∧
        attributes.speedFactor = x.factor w := by
    unfold TagMapper.attributes
    rw [x.factor_eq w hw htakes, hv]
    exact ⟨_, rfl, rfl, rfl⟩
  obtain ⟨attributes, hattributes, hdirection, hfactor⟩ := hattributes
  refine Link.ofWay_eq_ok_iff.mpr
    ⟨attributes, w.segments.map (x.linksOn restrictionsOf w), hattributes, ?_, rfl⟩
  rw [List.forall₂_map_right_iff, List.forall₂_same]
  intro s hs
  exact Link.ofSegment_eq_ok_iff.mpr ⟨x.length s, x.length_eq w hw htakes s hs,
    hfactor ▸ x.factor_ne_zero w hw htakes, x.linksOn_eq hdirection hfactor⟩

/-- All ways that take part have links. -/
theorem mapM_ofWay_eq :
    (ws.filter (·.takesPart m)).mapM (Link.ofWay m metric restrictionsOf) =
      .ok ((ws.filter (·.takesPart m)).map (x.links restrictionsOf)) := by
  refine mapM_eq_ok_map fun w hw => ?_
  obtain ⟨hmem, htakes⟩ := List.mem_filter.mp hw
  exact x.ofWay_eq hmem htakes

/-- A link belongs to its way and carries what is looked up under its identifier. -/
theorem of_mem_links (hw : w ∈ ws) (htakes : w.takesPart m = true)
    (hl : l ∈ x.links restrictionsOf w) : l.way = w.id ∧ l.restrictions = restrictionsOf w.id := by
  obtain ⟨hway, hrestrictions, -⟩ := Link.of_mem_ofWay (x.ofWay_eq hw htakes) hl
  exact ⟨hway, hrestrictions⟩

variable (restrictionsOf)

/-- A segment has a link. -/
theorem linksOn_ne_nil (w : Way α) (s : Node α × Node α) : x.linksOn restrictionsOf w s ≠ [] := by
  unfold linksOn
  cases TagMapper.direction w.scalarTags <;> exact List.cons_ne_nil _ _

/-- A way that takes part has links. -/
theorem links_ne_nil (hw : w ∈ ws) (htakes : w.takesPart m = true) :
    x.links restrictionsOf w ≠ [] :=
  Link.ne_nil_of_ofWay (x.ofWay_eq hw htakes) (Way.length_of_takesPart htakes)

end Measures

/-- The numbers that a way with links is measured by. -/
theorem Link.exists_of_ofWay {w : Way α} {ls : List (Link α)} (hlength : 2 ≤ w.nodes.length)
    (h : ofWay m metric restrictionsOf w = .ok ls) :
    (∃ factor : α, m.speedFactor (TagMapper.category w.scalarTags) = .ok factor ∧
      Quantity.isZero factor = false) ∧
    (∃ v : α, m.categorySpeed (TagMapper.category w.scalarTags) = .ok v) ∧
      ∀ s ∈ w.segments, ∃ length, Geometry.distance metric s.1 s.2 = .ok length := by
  obtain ⟨attributes, segmentLinks, hattributes, hsegments, -⟩ := ofWay_eq_ok_iff.mp h
  unfold TagMapper.attributes at hattributes
  obtain ⟨factor, hfactor, hattributes⟩ := bind_eq_ok.mp hattributes
  obtain ⟨speed, hspeed, hattributes⟩ := bind_eq_ok.mp hattributes
  cases hattributes
  have hsegment : ∀ s ∈ w.segments, ∃ length, Geometry.distance metric s.1 s.2 = .ok length ∧
      Quantity.isZero factor = false := by
    intro s hs
    obtain ⟨_, -, hof⟩ := exists_of_forall₂ hsegments s hs
    obtain ⟨length, hlength, hzero, -⟩ := ofSegment_eq_ok_iff.mp hof
    exact ⟨length, hlength, hzero⟩
  obtain ⟨s, hs⟩ := List.exists_mem_of_ne_nil _ (Way.segments_ne_nil hlength)
  obtain ⟨-, -, hzero⟩ := hsegment s hs
  exact ⟨⟨factor, hfactor, hzero⟩, ⟨speed, hspeed⟩,
    fun s hs => (hsegment s hs).imp fun _ h => h.1⟩

/-- **Ways can be measured** just when those that take part have links. -/
theorem nonempty_measures_iff :
    Nonempty (Measures m metric ws) ↔ ∀ w ∈ ws, w.takesPart m = true →
      ∃ ls, Link.ofWay m metric restrictionsOf w = .ok ls := by
  constructor
  · rintro ⟨x⟩ w hw htakes
    exact ⟨_, x.ofWay_eq hw htakes⟩
  intro h
  have hway : ∀ w ∈ ws, w.takesPart m = true → _ := fun w hw htakes =>
    (h w hw htakes).elim fun _ hof => Link.exists_of_ofWay (Way.length_of_takesPart htakes) hof
  have hget : ∀ {x : Except Fault α} {v : α}, x = .ok v →
      x = .ok (x.toOption.getD Quantity.zero) := by
    rintro _ v rfl
    rfl
  refine ⟨{
    factor w := (m.speedFactor (TagMapper.category w.scalarTags)).toOption.getD Quantity.zero
    length s := (Geometry.distance metric s.1 s.2).toOption.getD Quantity.zero
    factor_eq := fun w hw htakes => ?_
    factor_ne_zero := fun w hw htakes => ?_
    length_eq := fun w hw htakes s hs => ?_
    exists_speed := fun w hw htakes => (hway w hw htakes).2.1 }⟩
  · obtain ⟨⟨factor, hfactor, -⟩, -, -⟩ := hway w hw htakes
    exact hget hfactor
  · obtain ⟨⟨factor, hfactor, hzero⟩, -, -⟩ := hway w hw htakes
    rw [hfactor]
    exact hzero
  · obtain ⟨length, hlength⟩ := (hway w hw htakes).2.2 s hs
    exact hget hlength

namespace Snapshot

variable {γ : Type} [Multigraph γ α] [LawfulMultigraph γ] {s : Snapshot γ α}

/-- The ways of tables that are built can be measured. -/
theorem nonempty_measures (h : ofWays m metric restrictionsOf ws = .ok s) :
    Nonempty (Measures m metric ws) :=
  nonempty_measures_iff.mpr (exists_ofWays_iff.mp ⟨s, h⟩)

/-- **The parts of the tables that are built from ways.** -/
theorem ofWays_parts (x : Measures m metric ws) (h : ofWays m metric restrictionsOf ws = .ok s) :
    s.edges = Edge.number 0 (x.allLinks restrictionsOf) ∧
      s.nodes = Network.firstNodes ((ws.filter (·.takesPart m)).flatMap Way.nodes) ∧
        s.ways = .ofList ((ws.filter (·.takesPart m)).map fun w => (w.id, w)) ∧
          s.statistics.skipped + (ws.filter (·.takesPart m)).length = ws.length := by
  obtain ⟨lss, hlss, hedges, hparts⟩ := parts_of_ofWays h
  have hlinks := mapM_eq_ok_iff.mpr hlss
  rw [x.mapM_ofWay_eq] at hlinks
  cases hlinks
  exact ⟨hedges, hparts⟩

end Snapshot

namespace Network

variable {g : Network α}

/-- The ways of a network that is built can be measured. -/
theorem nonempty_measures (h : ofWays m metric restrictionsOf ws = .ok g) :
    Nonempty (Measures m metric ws) :=
  Snapshot.nonempty_measures (ofWays_eq_ok_iff.mp h)

/-- **A network can be built** just when the ways that take part can be measured. -/
theorem exists_ofWays_iff :
    (∃ g, ofWays m metric restrictionsOf ws = .ok g) ↔ Nonempty (Measures m metric ws) :=
  exists_ofWays_iff_links.trans nonempty_measures_iff.symm

/-- **The parts of a network that is built from ways.** -/
theorem ofWays_parts (x : Measures m metric ws) (h : ofWays m metric restrictionsOf ws = .ok g) :
    g.edges = Edge.number 0 (x.allLinks restrictionsOf) ∧
      g.nodes = firstNodes ((ws.filter (·.takesPart m)).flatMap Way.nodes) ∧
        g.ways = .ofList ((ws.filter (·.takesPart m)).map fun w => (w.id, w)) := by
  obtain ⟨hedges, hnodes, hways, -⟩ := Snapshot.ofWays_parts x (ofWays_eq_ok_iff.mp h)
  exact ⟨hedges, hnodes, hways⟩

/-! ## Views -/

section Views

omit [Geometry α]

variable [Quantity α] {policy : Policy α} {t : Traveller α} {e : Edge α} {way : Ident}

theorem isAccessible_iff :
    g.isAccessible policy t way = true ↔
      ∃ e ∈ g.edges, e.way = way ∧ (e.stepFor policy t).isSome = true := by
  unfold isAccessible
  simp only [List.any_eq_true, mem_edgesOf, and_assoc]

theorem mem_affectedEdges :
    e ∈ g.affectedEdges t .unlimited ↔
      e ∈ g.edges ∧ t.restrictionsInForce e.restrictions ≠ [] := by
  rw [affectedEdges_unlimited, List.mem_filter, Bool.not_eq_true', List.isEmpty_eq_false_iff]

theorem mem_affectedWays :
    way ∈ g.affectedWays t .unlimited ↔
      ∃ e ∈ g.edges, e.way = way ∧ t.restrictionsInForce e.restrictions ≠ [] := by
  unfold affectedWays
  rw [List.mem_mergeSort, List.mem_eraseDups, List.mem_map]
  refine exists_congr fun e => ?_
  rw [mem_affectedEdges, and_assoc, and_comm (a := e.way = way)]

/-- The affected edges come in the order of their numbers. -/
theorem ascending_affectedEdges (g : Network α) (t : Traveller α) :
    Edge.Ascending (g.affectedEdges t .unlimited) := by
  rw [affectedEdges_unlimited]
  exact g.inStep.ascending.filter _

end Views

/-- The links of the edges are those on the segments of the ways that take part. -/
theorem exists_edge_iff (x : Measures m metric ws) (h : ofWays m metric restrictionsOf ws = .ok g)
    {l : Link α} :
    (∃ e ∈ g.edges, e.toLink = l) ↔
      ∃ w ∈ ws, w.takesPart m = true ∧ ∃ s ∈ w.segments, l ∈ x.linksOn restrictionsOf w s := by
  rw [(ofWays_parts x h).1, ← List.mem_map, Edge.map_toLink_number]
  simp only [Measures.allLinks, Measures.links, List.mem_flatMap, List.mem_filter, and_assoc]

/-- Grouping edges by their ends repeats none. -/
theorem nodup_byTarget {β : Type} {es : List (Edge β)} (h : es.Nodup) : (byTarget es).Nodup := by
  unfold byTarget
  rw [List.nodup_flatMap]
  refine ⟨fun t _ => h.filter _, (nodup_eraseDups _).imp fun {s t} hne => ?_⟩
  intro e hs ht
  have hsource : e.target = s := by simpa using (List.mem_filter.mp hs).2
  have htarget : e.target = t := by simpa using (List.mem_filter.mp ht).2
  exact hne (hsource.symm.trans htarget)

end Network

/-! ## Agreement -/

namespace Snapshot

variable {γ : Type} [Multigraph γ α] {s : Snapshot γ α}

/-- **The views of a network agree with its edges.** -/
structure Agrees (s : Snapshot γ α) : Prop where
  /-- The number of an edge is its place. -/
  number : ∀ (i : Nat) (e : Edge α), s.edges[i]? = some e → e.id = i
  /-- The nodes are the ends of edges. -/
  hasNode : ∀ n, s.hasNode n = true ↔ ∃ e ∈ s.edges, e.source = n ∨ e.target = n
  /-- A node lists the edges that leave it, each once. -/
  outEdges : ∀ n, (s.outEdges n).Nodup ∧ ∀ e, e ∈ s.outEdges n ↔ e ∈ s.edges ∧ e.source = n
  /-- Two nodes list the edges from the one to the other in the order of their numbers. -/
  edgesBetween : ∀ a b, Edge.Ascending (s.edgesBetween a b) ∧
    ∀ e, e ∈ s.edgesBetween a b ↔ e ∈ s.edges ∧ e.source = a ∧ e.target = b
  /-- A way lists its edges in the order of their numbers. -/
  edgesOf : ∀ way, Edge.Ascending (s.edgesOf way) ∧
    ∀ e, e ∈ s.edgesOf way ↔ e ∈ s.edges ∧ e.way = way
  /-- The ways are those with edges. -/
  way? : ∀ way, (s.way? way).isSome = true ↔ s.edgesOf way ≠ []
  /-- The counters stand at what the tables hold. -/
  counts : s.statistics.nodes = s.nodeCount ∧ s.statistics.edges = s.edgeCount ∧
    s.statistics.ways = s.wayCount
  /-- The nodes are counted, and so are the edges, the ways that own some, and the restricted
  ones. -/
  statistics : s.statistics =
    { nodes := (s.edges.flatMap fun e => [e.source, e.target]).eraseDups.length
      edges := s.edges.length
      ways := s.owners.length
      skipped := s.statistics.skipped
      restricted := s.edges.countP fun e => !e.restrictions.isEmpty }

namespace InStep

variable (h : s.InStep)

omit [Geometry α]

include h

/-- The nodes are as many as the different ends of edges. -/
theorem nodeCount_eq :
    s.nodeCount = (s.edges.flatMap fun e => [e.source, e.target]).eraseDups.length := by
  have hkeys : s.nodeCount = s.nodes.keys.length := (List.length_map ..).symm
  rw [hkeys]
  refine length_eq_of_nodup s.nodes.nodup (nodup_eraseDups _) fun n => ?_
  rw [h.mem_nodes_iff, List.mem_eraseDups, List.mem_flatMap]
  simp only [List.mem_cons, List.not_mem_nil, or_false, eq_comm]

/-- The ways are as many as the owners of edges. -/
theorem ways_size_eq : s.ways.size = s.owners.length := by
  have hkeys : s.ways.size = s.ways.keys.length := (List.length_map ..).symm
  rw [hkeys]
  refine length_eq_of_nodup s.ways.nodup s.byWay.nodup fun way => ?_
  rw [h.mem_ways_iff, ← h.mem_owners]

/-- **The views of tables that are in step agree.** -/
theorem agrees : s.Agrees where
  number i e hi := by
    have hids : (s.edges.map Edge.id)[i]? = some e.id := by rw [List.getElem?_map, hi]; rfl
    rw [h.number] at hids
    obtain ⟨hlt, heq⟩ := List.getElem?_eq_some_iff.mp hids
    rw [List.getElem_range] at heq
    exact heq.symm
  hasNode n := (OrderedMap.contains_iff _ _).trans h.mem_nodes_iff
  outEdges n := by
    rw [h.outEdges_eq]
    refine ⟨Network.nodup_byTarget ((Edge.nodup_of_ascending h.ascending).filter _), fun e => ?_⟩
    rw [Network.mem_byTarget, List.mem_filter, beq_iff_eq]
  edgesBetween a b := by
    rw [h.edgesBetween_eq]
    refine ⟨h.ascending.filter _, fun e => ?_⟩
    rw [List.mem_filter, Bool.and_eq_true, beq_iff_eq, beq_iff_eq]
  edgesOf way := by
    refine ⟨?_, fun e => h.mem_edgesOf⟩
    rw [h.edgesOf_eq]
    exact h.ascending.filter _
  way? way := OrderedMap.isSome_get?_iff.trans h.mem_ways_iff
  counts := by
    have hways : s.owners.length = s.wayCount := List.length_map ..
    rw [h.statistics_eq, h.ways_size_eq]
    exact ⟨rfl, rfl, hways⟩
  statistics := by
    rw [← h.nodeCount_eq, ← h.ways_size_eq]
    exact h.statistics_eq

end InStep

/-- **The network that is built is the reference network, and all its views agree.** Its edges are
the links of the ways that take part in their order, which are measured by the factors of their
categories and the distances of their segments; every other way is skipped. The graph may be held by
any container that obeys the laws of one. -/
theorem ofWays_reference [LawfulMultigraph γ] (h : ofWays m metric restrictionsOf ws = .ok s) :
    (∃ x : Measures m metric ws,
      s.edges.map Edge.toLink = (ws.filter (·.takesPart m)).flatMap (x.links restrictionsOf) ∧
        ∀ w ∈ ws, w.takesPart m = true → x.links restrictionsOf w ≠ []) ∧
    s.Agrees ∧
    s.statistics.skipped + (ws.filter (·.takesPart m)).length = ws.length := by
  obtain ⟨x⟩ := nonempty_measures h
  obtain ⟨hedges, -, -, hskipped⟩ := ofWays_parts x h
  refine ⟨⟨x, ?_, fun w => x.links_ne_nil restrictionsOf⟩,
    (inStep_of_ofWays h).agrees, hskipped⟩
  rw [hedges, Edge.map_toLink_number]
  rfl

/-- Two ways of one identifier, with an edge from a node to itself, and a way that is too short. -/
def repeatedWays : List (Way ℚ) :=
  [{ id := .number 1, tags := .ofList [("highway", "residential")]
     nodes := [⟨.number 1, 0, 0⟩, ⟨.number 1, 0, 0⟩, ⟨.number 2, 1, 0⟩] },
   { id := .number 1, tags := .ofList [("highway", "path"), ("oneway", "-1")]
     nodes := [⟨.number 2, 1, 0⟩, ⟨.number 3, 1, 1⟩] },
   { id := .number 2, tags := .ofList [("highway", "path")], nodes := [⟨.number 3, 1, 1⟩] }]

theorem ofWays_reference_repeated :
    ∃ s : Snapshot (AdjacencyMaps ℚ) ℚ,
      ofWays .standard .euclidean (fun _ => []) repeatedWays = .ok s ∧
      s.edges.length = 5 ∧ s.Agrees ∧
        s.statistics.skipped + (repeatedWays.filter (·.takesPart .standard)).length = 3 := by
  have hmade : ((ofWays .standard .euclidean (fun _ => []) repeatedWays :
      Except Fault (Snapshot (AdjacencyMaps ℚ) ℚ)).map fun s => s.edges.length) = .ok 5 := by
    decide +kernel
  obtain ⟨s, hs, hlength⟩ := map_eq_ok.mp hmade
  obtain ⟨-, hagrees, hskipped⟩ := ofWays_reference hs
  exact ⟨s, hs, hlength, hagrees, hskipped⟩

end Snapshot

end RoadRules
