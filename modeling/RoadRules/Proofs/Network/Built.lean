import RoadRules.Proofs.Network.Views
import RoadRules.Proofs.Results
import RoadRules.Travel.Route

set_option autoImplicit false

/-! # What a network is built from

The edges of a network are the links of the ways that take part, numbered one after the other. A way
has a link for each of its segments in each direction that its tag permits, and all of them carry
the restrictions that are looked up under its identifier. -/

namespace RoadRules

/-- The directions of travel that are permitted, along the nodes (`true`) before against them. -/
def Direction.permitted (d : Direction) : List Bool :=
  [true, false].filter fun forward => !d.forbids forward

theorem Direction.mem_permitted {d : Direction} {forward : Bool} :
    forward ∈ d.permitted ↔ d.forbids forward = false := by
  cases d <;> cases forward <;> decide

/-- Some direction of travel is always permitted, and both are only under the direction `both`. -/
theorem Direction.exists_permitted (d : Direction) : ∃ forward, d.forbids forward = false := by
  cases d with
  | both => exact ⟨true, rfl⟩
  | forward => exact ⟨true, rfl⟩
  | reverse => exact ⟨false, rfl⟩

theorem Direction.eq_both_iff {d : Direction} :
    d = .both ↔ ∀ forward, d.forbids forward = false := by
  cases d <;> decide

variable {α : Type} [Geometry α] {m : TagMapper} {metric : Metric}
  {restrictionsOf : Ident → List (Restriction α)}

/-! ## Ways among others -/

namespace Way

variable {w v : Way α} {ws : List (Way α)}

/-- Whether a way is among the given ones, and no other of them has its identifier. -/
def IsOnly (w : Way α) (ws : List (Way α)) : Prop :=
  ws.filter (fun v => v.id == w.id) = [w]

omit [Geometry α] in
theorem segments_ne_nil (h : 2 ≤ w.nodes.length) : w.segments ≠ [] := by
  rw [segments, ne_eq, steps_eq_nil_iff]
  omega

omit [Geometry α] in
theorem IsOnly.mem (hw : w.IsOnly ws) : w ∈ ws :=
  (List.mem_filter.mp (hw ▸ List.mem_singleton_self w)).1

omit [Geometry α] in
theorem IsOnly.eq (hw : w.IsOnly ws) (hv : v ∈ ws) (hid : v.id = w.id) : v = w := by
  have hmem : v ∈ ws.filter (fun v => v.id == w.id) :=
    List.mem_filter.mpr ⟨hv, beq_iff_eq.mpr hid⟩
  rw [hw, List.mem_singleton] at hmem
  exact hmem

end Way

/-! ## Links -/

namespace Link

variable {way : Ident} {attributes : WayAttributes α} {rs : List (Restriction α)} {a b : Node α}
  {w : Way α} {l : Link α} {ls : List (Link α)}

/-- The link of a segment of the given length, along or against the nodes. -/
def ofStep (way : Ident) (attributes : WayAttributes α) (rs : List (Restriction α)) (a b : Node α)
    (length : α) (forward : Bool) : Link α where
  source := if forward then a.id else b.id
  target := if forward then b.id else a.id
  way := way
  cost := length / attributes.speedFactor
  length := length
  restrictions := rs
  bidirectional := attributes.direction == .both
  forward := forward

/-- **The links of a segment**: one for each permitted direction. -/
theorem ofSegment_eq_ok_iff :
    ofSegment metric way attributes rs a b = .ok ls ↔
      ∃ length, Geometry.distance metric a b = .ok length ∧
        Quantity.isZero attributes.speedFactor = false ∧
          attributes.direction.permitted.map (ofStep way attributes rs a b length) = ls := by
  have hlinks : ∀ length : α,
      attributes.direction.permitted.map (ofStep way attributes rs a b length) =
        (if attributes.direction.allowsForward then
          [ofStep way attributes rs a b length true] else []) ++
        (if attributes.direction.allowsBackward then
          [ofStep way attributes rs a b length false] else []) := by
    intro length
    cases attributes.direction <;> rfl
  simp only [hlinks]
  unfold ofSegment
  rw [bind_eq_ok]
  refine exists_congr fun length => and_congr_right fun _ => ?_
  by_cases hzero : Quantity.isZero attributes.speedFactor = true
  · rw [if_pos hzero, hzero]
    exact ⟨nofun, nofun⟩
  · rw [if_neg hzero, and_iff_right (Bool.eq_false_iff.mpr hzero)]
    exact ⟨Except.ok.inj, congrArg Except.ok⟩

/-- **The links of a way** are those of its segments. -/
theorem ofWay_eq_ok_iff :
    ofWay m metric restrictionsOf w = .ok ls ↔
      ∃ attributes lss, m.attributes w.scalarTags = .ok attributes ∧
        List.Forall₂ (fun s ls => ofSegment metric w.id attributes (restrictionsOf w.id) s.1 s.2 =
          .ok ls) w.segments lss ∧ lss.flatten = ls := by
  simp only [← mapM_eq_ok_iff]
  exact ofWay_eq_ok_iff_mapM

omit [Geometry α] in
/-- The direction of a way is that of its tag. -/
theorem direction_of_attributes [Quantity α]
    (h : m.attributes w.scalarTags = .ok attributes) :
    attributes.direction = TagMapper.direction w.scalarTags := by
  unfold TagMapper.attributes at h
  obtain ⟨_, -, h⟩ := bind_eq_ok.mp h
  obtain ⟨_, -, h⟩ := bind_eq_ok.mp h
  cases h
  rfl

/-- **A link of a way** belongs to the way, carries its restrictions, and follows a direction that
its tag permits. -/
theorem of_mem_ofWay (h : ofWay m metric restrictionsOf w = .ok ls) (hl : l ∈ ls) :
    l.way = w.id ∧ l.restrictions = restrictionsOf w.id ∧
      (TagMapper.direction w.scalarTags).forbids l.forward = false := by
  obtain ⟨attributes, lss, hattributes, hsegments, rfl⟩ := ofWay_eq_ok_iff.mp h
  obtain ⟨segmentLinks, hmem, hl⟩ := List.mem_flatten.mp hl
  obtain ⟨s, -, hs⟩ := (mem_iff_of_forall₂ hsegments).mp hmem
  obtain ⟨length, -, -, rfl⟩ := ofSegment_eq_ok_iff.mp hs
  obtain ⟨forward, hforward, rfl⟩ := List.mem_map.mp hl
  rw [← direction_of_attributes hattributes]
  exact ⟨rfl, rfl, Direction.mem_permitted.mp hforward⟩

/-- A way with a segment has a link in each direction that its tag permits. -/
theorem exists_mem_ofWay (h : ofWay m metric restrictionsOf w = .ok ls)
    (hlength : 2 ≤ w.nodes.length) {forward : Bool}
    (hforward : (TagMapper.direction w.scalarTags).forbids forward = false) :
    ∃ l ∈ ls, l.forward = forward := by
  obtain ⟨attributes, lss, hattributes, hsegments, rfl⟩ := ofWay_eq_ok_iff.mp h
  obtain ⟨s, hs⟩ := List.exists_mem_of_ne_nil _ (Way.segments_ne_nil hlength)
  obtain ⟨segmentLinks, hmem, hlinks⟩ := exists_of_forall₂ hsegments s hs
  obtain ⟨length, -, -, rfl⟩ := ofSegment_eq_ok_iff.mp hlinks
  rw [← direction_of_attributes hattributes] at hforward
  exact ⟨_, List.mem_flatten_of_mem hmem
    (List.mem_map_of_mem (Direction.mem_permitted.mpr hforward)), rfl⟩

end Link

/-! ## Drafts -/

namespace Edge

variable {β : Type}

theorem length_number (first : Nat) (ls : List (Link β)) :
    (number first ls).length = ls.length := by
  rw [← List.length_map Edge.toLink, map_toLink_number]

theorem number_append (first : Nat) (ls ls' : List (Link β)) :
    number first (ls ++ ls') = number first ls ++ number (first + ls.length) ls' := by
  induction ls generalizing first with
  | nil => rfl
  | cons l rest ih =>
      have hsum : first + 1 + rest.length = first + (l :: rest).length := by
        rw [List.length_cons]
        omega
      rw [List.cons_append, number, ih, hsum, number, List.cons_append]

end Edge

/-- The nodes with one more node; one that is there keeps its place and its coordinates. -/
def Network.addFirst {β : Type} (nodes : OrderedMap Ident (Node β)) (n : Node β) :
    OrderedMap Ident (Node β) :=
  if nodes.contains n.id then nodes else nodes.insert n.id n

/-- The nodes of a list, each in the place and with the coordinates of its first occurrence. -/
def Network.firstNodes {β : Type} (ns : List (Node β)) : OrderedMap Ident (Node β) :=
  ns.foldl addFirst .empty

namespace Draft

variable {γ : Type} [Multigraph γ α] [LawfulMultigraph γ] {d d' : Draft γ α} {ws : List (Way α)}

omit [Geometry α] in
theorem nodes_addNode (d : Draft γ α) (n : Node α) :
    (d.addNode n).nodes = Network.addFirst d.nodes n := by
  unfold addNode Network.addFirst nodes
  split
  · rfl
  · exact LawfulMultigraph.nodes_addNode _ _

omit [Geometry α] in
theorem nodes_foldl_addNode (d : Draft γ α) (ns : List (Node α)) :
    (ns.foldl addNode d).nodes = ns.foldl Network.addFirst d.nodes := by
  induction ns generalizing d with
  | nil => rfl
  | cons n rest ih => rw [List.foldl_cons, ih, nodes_addNode, List.foldl_cons]

/-- **What the ways of a list do to a draft**: those that take part bring their links, their nodes
and themselves, and the others are counted. -/
theorem parts_of_foldlM (h : ws.foldlM (addWay m metric restrictionsOf) d = .ok d') :
    ∃ lss, List.Forall₂ (fun w ls => Link.ofWay m metric restrictionsOf w = .ok ls)
        (ws.filter (·.takesPart m)) lss ∧
      d'.edges = d.edges ++ Edge.number d.edges.length lss.flatten ∧
      d'.nodes = ((ws.filter (·.takesPart m)).flatMap Way.nodes).foldl Network.addFirst d.nodes ∧
      d'.ways = (ws.filter (·.takesPart m)).foldl (fun ways w => ways.insert w.id w) d.ways ∧
      d'.skipped + (ws.filter (·.takesPart m)).length = d.skipped + ws.length := by
  induction ws generalizing d with
  | nil =>
      cases h
      exact ⟨[], .nil, (List.append_nil _).symm, rfl, rfl, rfl⟩
  | cons w rest ih =>
      rw [List.foldlM_cons] at h
      obtain ⟨next, hnext, hrest⟩ := bind_eq_ok.mp h
      obtain ⟨lss, hlss, hedges, hnodes, hways, hskipped⟩ := ih hrest
      rw [addWay_eq] at hnext
      split at hnext
      · rename_i htakes
        obtain ⟨ls, hls, rfl⟩ := map_eq_ok.mp hnext
        have hlinks : LinksOn w ls := fun l hl => Link.ends_of_mem_ofWay hls hl
        rw [List.filter_cons_of_pos htakes]
        refine ⟨ls :: lss, .cons hls hlss, ?_, ?_, ?_, ?_⟩
        · rw [hedges, edges_enter, List.length_append, Edge.length_number, List.flatten_cons,
            Edge.number_append, List.append_assoc]
        · rw [hnodes, nodes_enter hlinks, nodes_foldl_addNode, List.flatMap_cons,
            List.foldl_append]
          rfl
        · rw [hways, ways_enter, List.foldl_cons]
        · rw [skipped_enter] at hskipped
          exact congrArg (· + 1) hskipped
      · rename_i hskip
        cases hnext
        rw [List.filter_cons_of_neg hskip]
        exact ⟨lss, hlss, hedges, hnodes, hways,
          hskipped.trans (Nat.succ_add_eq_add_succ d.skipped rest.length)⟩

omit [LawfulMultigraph γ] in
/-- A draft can be made of ways if those that take part have links. -/
theorem exists_foldlM (h : ∀ w ∈ ws, w.takesPart m = true →
      ∃ ls, Link.ofWay m metric restrictionsOf w = .ok ls) (d : Draft γ α) :
    ∃ d', ws.foldlM (addWay m metric restrictionsOf) d = .ok d' := by
  induction ws generalizing d with
  | nil => exact ⟨d, rfl⟩
  | cons w rest ih =>
      obtain ⟨hw, hrest⟩ := List.forall_mem_cons.mp h
      rw [List.foldlM_cons, addWay_eq]
      split
      · rename_i htakes
        obtain ⟨ls, hls⟩ := hw htakes
        rw [hls]
        exact ih hrest _
      · exact ih hrest _

end Draft

/-! ## Snapshots -/

namespace Snapshot

variable {γ : Type} [Multigraph γ α] {s : Snapshot γ α} {ws : List (Way α)}

theorem ofWays_eq_ok_iff : ofWays m metric restrictionsOf ws = .ok s ↔
    ∃ d, Draft.ofWays m metric restrictionsOf ws = .ok d ∧ ofDraft d = s := map_eq_ok

/-- **The tables that are built from ways** hold what the ways that take part bring. -/
theorem parts_of_ofWays [LawfulMultigraph γ] (h : ofWays m metric restrictionsOf ws = .ok s) :
    ∃ lss, List.Forall₂ (fun w ls => Link.ofWay m metric restrictionsOf w = .ok ls)
        (ws.filter (·.takesPart m)) lss ∧
      s.edges = Edge.number 0 lss.flatten ∧
      s.nodes = Network.firstNodes ((ws.filter (·.takesPart m)).flatMap Way.nodes) ∧
      s.ways = .ofList ((ws.filter (·.takesPart m)).map fun w => (w.id, w)) ∧
      s.statistics.skipped + (ws.filter (·.takesPart m)).length = ws.length := by
  obtain ⟨d, hd, rfl⟩ := ofWays_eq_ok_iff.mp h
  obtain ⟨lss, hlss, hedges, hnodes, hways, hskipped⟩ := Draft.parts_of_foldlM hd
  refine ⟨lss, hlss, hedges, ?_, ?_, hskipped.trans (Nat.zero_add _)⟩
  · have hstart : (Draft.empty : Draft γ α).nodes = .empty := LawfulMultigraph.nodes_empty
    rw [hstart] at hnodes
    exact hnodes
  · rw [OrderedMap.ofList, List.foldl_map]
    exact hways

/-- Tables can be built of ways just when those that take part have links. -/
theorem exists_ofWays_iff [LawfulMultigraph γ] :
    (∃ s : Snapshot γ α, ofWays m metric restrictionsOf ws = .ok s) ↔
      ∀ w ∈ ws, w.takesPart m = true → ∃ ls, Link.ofWay m metric restrictionsOf w = .ok ls := by
  constructor
  · rintro ⟨s, h⟩ w hw htakes
    obtain ⟨lss, hlss, -⟩ := parts_of_ofWays h
    obtain ⟨ls, -, hls⟩ := exists_of_forall₂ hlss w (List.mem_filter.mpr ⟨hw, htakes⟩)
    exact ⟨ls, hls⟩
  · intro h
    obtain ⟨d, hd⟩ := Draft.exists_foldlM h (Draft.empty : Draft γ α)
    exact ⟨_, ofWays_eq_ok_iff.mpr ⟨d, hd, rfl⟩⟩

end Snapshot

/-! ## Networks -/

namespace Network

variable {ws : List (Way α)} {g : Network α}

theorem ofWays_eq_ok_iff :
    ofWays m metric restrictionsOf ws = .ok g ↔
      Snapshot.ofWays m metric restrictionsOf ws = .ok g.toSnapshot := by
  unfold ofWays
  split
  · rename_i f hf
    rw [hf]
    exact ⟨nofun, nofun⟩
  · rename_i s hs
    constructor
    · intro h
      cases h
      exact hs
    · intro h
      cases hs.symm.trans h
      rfl

/-- **The edges of a network** are the links of the ways that take part. -/
theorem ofWays_eq_ok (h : ofWays m metric restrictionsOf ws = .ok g) :
    ∃ lss, List.Forall₂ (fun w ls => Link.ofWay m metric restrictionsOf w = .ok ls)
        (ws.filter (·.takesPart m)) lss ∧
      g.edges = Edge.number 0 lss.flatten ∧
        g.ways = .ofList ((ws.filter (·.takesPart m)).map fun w => (w.id, w)) := by
  obtain ⟨lss, hlss, hedges, -, hways, -⟩ := Snapshot.parts_of_ofWays (ofWays_eq_ok_iff.mp h)
  exact ⟨lss, hlss, hedges, hways⟩

theorem exists_ofWays_iff_links :
    (∃ g : Network α, ofWays m metric restrictionsOf ws = .ok g) ↔
      ∀ w ∈ ws, w.takesPart m = true → ∃ ls, Link.ofWay m metric restrictionsOf w = .ok ls := by
  rw [← Snapshot.exists_ofWays_iff (γ := AdjacencyMaps α)]
  constructor
  · rintro ⟨g, h⟩
    exact ⟨_, ofWays_eq_ok_iff.mp h⟩
  · rintro ⟨s, h⟩
    exact ⟨⟨s, Snapshot.inStep_of_ofWays h⟩, ofWays_eq_ok_iff.mpr h⟩

/-- A link belongs to the network just when it is a link of a way that takes part. -/
theorem exists_mem_edges_iff (h : ofWays m metric restrictionsOf ws = .ok g) {l : Link α} :
    (∃ e ∈ g.edges, e.toLink = l) ↔
      ∃ w ∈ ws, w.takesPart m = true ∧ ∃ ls, Link.ofWay m metric restrictionsOf w = .ok ls ∧
        l ∈ ls := by
  obtain ⟨lss, hlss, hedges, -⟩ := ofWays_eq_ok h
  have hlinks : (∃ e ∈ g.edges, e.toLink = l) ↔ l ∈ lss.flatten := by
    rw [hedges, ← List.mem_map, Edge.map_toLink_number]
  rw [hlinks, List.mem_flatten]
  constructor
  · rintro ⟨ls, hls, hl⟩
    obtain ⟨w, hw, hof⟩ := (mem_iff_of_forall₂ hlss).mp hls
    obtain ⟨hmem, htakes⟩ := List.mem_filter.mp hw
    exact ⟨w, hmem, htakes, ls, hof, hl⟩
  · rintro ⟨w, hmem, htakes, ls, hof, hl⟩
    exact ⟨ls, (mem_iff_of_forall₂ hlss).mpr ⟨w, List.mem_filter.mpr ⟨hmem, htakes⟩, hof⟩, hl⟩

/-- An edge of a network carries what is looked up under the identifier of its way. -/
theorem restrictions_eq (h : ofWays m metric restrictionsOf ws = .ok g) {e : Edge α}
    (he : e ∈ g.edges) : e.restrictions = restrictionsOf e.way := by
  obtain ⟨w, -, -, ls, hof, hl⟩ := (exists_mem_edges_iff h).mp ⟨e, he, rfl⟩
  obtain ⟨hid, hrestrictions, -⟩ := Link.of_mem_ofWay hof hl
  rw [hrestrictions, hid]

/-! ## One way of a network -/

section Way

variable {w : Way α} {e : Edge α}

/-- **The edges of a way** whose identifier no other way has: there are some only if the way takes
part, they carry what is looked up under the identifier, and they follow its tag. -/
theorem of_mem_edgesOf (h : ofWays m metric restrictionsOf ws = .ok g)
    (hw : w.IsOnly ws) (he : e ∈ g.edgesOf w.id) :
    w.takesPart m = true ∧ e.restrictions = restrictionsOf w.id ∧
      (TagMapper.direction w.scalarTags).forbids e.forward = false := by
  obtain ⟨hmem, hway⟩ := mem_edgesOf.mp he
  obtain ⟨v, hv, htakes, ls, hof, hl⟩ := (exists_mem_edges_iff h).mp ⟨e, hmem, rfl⟩
  obtain ⟨hid, hrestrictions, hforward⟩ := Link.of_mem_ofWay hof hl
  obtain rfl := hw.eq hv (hid.symm.trans hway)
  exact ⟨htakes, hrestrictions, hforward⟩

/-- A way that takes part has edges in each direction that its tag permits. -/
theorem exists_mem_edgesOf (h : ofWays m metric restrictionsOf ws = .ok g) (hw : w ∈ ws)
    (htakes : w.takesPart m = true) {forward : Bool}
    (hforward : (TagMapper.direction w.scalarTags).forbids forward = false) :
    ∃ e ∈ g.edgesOf w.id, e.forward = forward := by
  obtain ⟨lss, hlss, -, -⟩ := ofWays_eq_ok h
  obtain ⟨ls, -, hof⟩ := exists_of_forall₂ hlss w (List.mem_filter.mpr ⟨hw, htakes⟩)
  obtain ⟨l, hl, hdirection⟩ :=
    Link.exists_mem_ofWay hof (Way.length_of_takesPart htakes) hforward
  obtain ⟨e, he, rfl⟩ := (exists_mem_edges_iff h).mpr ⟨w, hw, htakes, ls, hof, hl⟩
  exact ⟨e, mem_edgesOf.mpr ⟨he, (Link.of_mem_ofWay hof hl).1⟩, hdirection⟩

/-- The restrictions on a way are those that are looked up under its identifier. -/
theorem restrictionsOn_eq (h : ofWays m metric restrictionsOf ws = .ok g) {way : Ident}
    (hway : g.way? way = some w) : g.restrictionsOn hway = restrictionsOf way := by
  have hfirst := List.head_mem (g.inStep.edgesOf_ne_nil hway)
  obtain ⟨hmem, hown⟩ := mem_edgesOf.mp hfirst
  unfold restrictionsOn
  rw [restrictions_eq h hmem, hown]

/-- A network knows the ways that take part, and no others. -/
theorem way?_eq (h : ofWays m metric restrictionsOf ws = .ok g)
    (hw : w.IsOnly ws) :
    g.way? w.id = if w.takesPart m then some w else none := by
  obtain ⟨-, -, -, hways⟩ := ofWays_eq_ok h
  have hentry : ∀ e ∈ ((ws.filter (·.takesPart m)).map fun w => (w.id, w)).reverse,
      e.1 = w.id → e.2 = w ∧ w.takesPart m = true := by
    intro e he hid
    obtain ⟨v, hv, rfl⟩ := List.mem_map.mp (List.mem_reverse.mp he)
    obtain ⟨hv, htakes⟩ := List.mem_filter.mp hv
    have hvw : v = w := hw.eq hv hid
    exact ⟨hvw, hvw ▸ htakes⟩
  unfold Snapshot.way?
  rw [hways, OrderedMap.get?_ofList]
  cases hfound : ((ws.filter (·.takesPart m)).map fun w => (w.id, w)).reverse.find?
      (fun e => decide (e.1 = w.id)) with
  | none =>
      have hno : ¬ w.takesPart m = true := by
        intro htakes
        have hin : (w.id, w) ∈ ((ws.filter (·.takesPart m)).map fun w => (w.id, w)).reverse :=
          List.mem_reverse.mpr (List.mem_map.mpr ⟨w, List.mem_filter.mpr ⟨hw.mem, htakes⟩, rfl⟩)
        simpa using List.find?_eq_none.mp hfound _ hin
      rw [if_neg hno]
      rfl
  | some e =>
      obtain ⟨heq, htakes⟩ := hentry e (List.mem_of_find?_eq_some hfound)
        (by simpa using List.find?_some hfound)
      rw [if_pos htakes, Option.map_some, heq]

end Way

end Network

end RoadRules
