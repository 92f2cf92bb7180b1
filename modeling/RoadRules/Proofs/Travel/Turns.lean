import Mathlib.Algebra.Order.BigOperators.Group.List
import RoadRules.Proofs.Network.Reference
import RoadRules.Proofs.Travel.Trail

set_option autoImplicit false

/-! # The turns of a search

A search takes one turn after the other: each takes the first entry from the queue and drops it, or
expands its node, which may put more entries into the queue. With negative costs or undefined ones
nothing can be said about the order in which this happens. But an entry is put there for a step that
leaves the expanded node, and a node that is expanded is settled for good. So the number of entries
together with the number of steps that leave nodes yet to be settled, the *load* of the search, goes
down with every turn (`Search.Turns.add_load_le`), and a search ends after one turn for its start
and at most one for each edge (`Network.search_ends`). -/

namespace RoadRules

variable {α : Type} [Quantity α]

namespace Search

section Turns

variable (steps : Ident → List (Edge α × α)) (budget : Budget) (goal : Ident)

/-- **Turns of a search** that has spent some units of its budget: from a state to another one, with
the nodes that are expanded, in their order, and the number of turns. -/
inductive Turns : Nat → Search α → List Ident → Nat → Search α → Prop
  | none {spent : Nat} {s : Search α} : Turns spent s [] 0 s
  -- The entry of a settled node is dropped.
  | skip {spent n : Nat} {s s' : Search α} {c : α} {id : Ident} {rest : List (α × Ident)}
      {ids : List Ident} : s.queue = (c, id) :: rest → id ∉ s.unsettled →
        Turns spent { s with queue := rest } ids n s' → Turns spent s ids (n + 1) s'
  -- A node other than the goal is settled, and all steps that leave it are looked at.
  | expand {spent n : Nat} {s s' : Search α} {c : α} {id : Ident} {rest : List (α × Ident)}
      {ids : List Ident} : s.queue = (c, id) :: rest → id ∈ s.unsettled → id ≠ goal →
        budget.allows spent = true →
          Turns (spent + 1) ((steps id).foldl (relax c) (s.settle id rest)) ids n s' →
            Turns spent s (id :: ids) (n + 1) s'

/-- **How a search stops**: with what it then answers, and whether it is cut short. -/
inductive Stops : Nat → Search α → Search α × Bool → Prop
  -- Nothing is left to look at.
  | empty {spent : Nat} {s : Search α} : s.queue = [] → Stops spent s (s, false)
  -- The goal comes next.
  | goal {spent : Nat} {s : Search α} {c : α} {rest : List (α × Ident)} :
      s.queue = (c, goal) :: rest → goal ∈ s.unsettled → Stops spent s (s, false)
  -- The budget does not allow to expand another node.
  | exhausted {spent : Nat} {s : Search α} {c : α} {id : Ident} {rest : List (α × Ident)} :
      s.queue = (c, id) :: rest → id ∈ s.unsettled → id ≠ goal → ¬budget.allows spent = true →
        Stops spent s (s.settle id rest, true)

/-- The number of entries in the queue and of steps that leave nodes yet to be settled. -/
def load (s : Search α) : Nat :=
  s.queue.length + (s.unsettled.map fun id => (steps id).length).sum

end Turns

variable {steps : Ident → List (Edge α × α)} {budget : Budget} {goal id : Ident} {spent n : Nat}
  {s s' : Search α} {c : α} {rest : List (α × Ident)} {ids : List Ident}

/-- **A run is a number of turns**, after which the search stops. -/
theorem exists_turns (steps : Ident → List (Edge α × α)) (budget : Budget) (goal : Ident)
    (spent : Nat) (s : Search α) :
    ∃ ids n s', Turns steps budget goal spent s ids n s' ∧
      Stops budget goal (spent + ids.length) s' (s.run steps budget goal spent) := by
  induction spent, s using run.induct steps budget goal with
  | case1 spent s hq => exact ⟨[], 0, s, .none, run_empty hq ▸ .empty hq⟩
  | case2 spent s c rest hq hid => exact ⟨[], 0, s, .none, run_goal hq hid ▸ .goal hq hid⟩
  | case3 spent s c id rest hq hid hgoal hallows ih =>
      obtain ⟨ids, n, s', hturns, hstops⟩ := ih
      refine ⟨id :: ids, n + 1, s', .expand hq hid hgoal hallows hturns, ?_⟩
      rw [run_round hq hid hgoal hallows, List.length_cons, Nat.add_comm ids.length,
        ← Nat.add_assoc]
      exact hstops
  | case4 spent s c id rest hq hid hgoal hallows =>
      exact ⟨[], 0, s, .none,
        run_exhausted hq hid hgoal hallows ▸ .exhausted hq hid hgoal hallows⟩
  | case5 spent s c id rest hq hid ih =>
      obtain ⟨ids, n, s', hturns, hstops⟩ := ih
      exact ⟨ids, n + 1, s', .skip hq hid hturns, run_skip hq hid ▸ hstops⟩

/-! ## The load -/

theorem length_enqueue (c : α) (id : Ident) (queue : List (α × Ident)) :
    (enqueue c id queue).length = queue.length + 1 := by
  induction queue with
  | nil => rfl
  | cons e rest ih =>
      unfold enqueue
      split
      · rfl
      · rw [List.length_cons, ih, List.length_cons]

/-- Looking at steps puts at most one entry into the queue for each of them. -/
theorem length_queue_foldl_relax_le (c : α) (list : List (Edge α × α)) (s : Search α) :
    (list.foldl (relax c) s).queue.length ≤ s.queue.length + list.length := by
  induction list generalizing s with
  | nil => exact Nat.le_refl _
  | cons step rest ih =>
      obtain ⟨e, d⟩ := step
      have hrest := ih (relax c s (e, d))
      rw [List.foldl_cons, List.length_cons]
      rcases relax_cases c s e d with ⟨-, hs⟩ | ⟨-, -, hs⟩
      · rw [hs] at hrest ⊢
        omega
      · have hqueue : (relax c s (e, d)).queue.length = s.queue.length + 1 := by
          rw [hs]
          exact length_enqueue ..
        omega

omit [Quantity α] in
variable (steps) in
/-- Dropping an entry lowers the load by one. -/
theorem load_skip (hq : s.queue = (c, id) :: rest) :
    load steps { s with queue := rest } + 1 = load steps s := by
  unfold load
  rw [hq, List.length_cons]
  dsimp only
  omega

variable (steps) in
/-- Expanding a node lowers the load: its steps leave a settled node now, and each of them has put
one entry into the queue at most. -/
theorem load_expand (hq : s.queue = (c, id) :: rest) (hid : id ∈ s.unsettled) :
    load steps ((steps id).foldl (relax c) (s.settle id rest)) + 1 ≤ load steps s := by
  have hqueue := length_queue_foldl_relax_le c (steps id) (s.settle id rest)
  have hsum := List.sum_map_erase (fun id => (steps id).length) hid
  have hrest : (s.settle id rest).queue.length = rest.length := rfl
  unfold load
  rw [unsettled_foldl_relax, hq, List.length_cons]
  show _ + ((s.unsettled.erase id).map _).sum + 1 ≤ _
  omega

namespace Turns

/-- **Every turn lowers the load.** -/
theorem add_load_le (h : Turns steps budget goal spent s ids n s') :
    n + load steps s' ≤ load steps s := by
  induction h with
  | none => exact Nat.le_of_eq (Nat.zero_add _)
  | skip hq hid _ ih =>
      have hload := load_skip steps hq
      omega
  | expand hq hid _ _ _ ih =>
      have hload := load_expand steps hq hid
      omega

/-- **No node is expanded twice**, and only nodes that are not settled are expanded. -/
theorem nodup (h : Turns steps budget goal spent s ids n s') (hs : s.unsettled.Nodup) :
    ids.Nodup ∧ ∀ id ∈ ids, id ∈ s.unsettled := by
  induction h with
  | none => exact ⟨List.nodup_nil, nofun⟩
  | skip _ _ _ ih => exact ih hs
  | @expand spent n s s' c id rest ids hq hid _ _ _ ih =>
      rw [unsettled_foldl_relax] at ih
      have hsettled : (s.settle id rest).unsettled = s.unsettled.erase id := rfl
      rw [hsettled] at ih
      obtain ⟨hnodup, hmem⟩ := ih (hs.erase id)
      refine ⟨List.nodup_cons.mpr ⟨fun hid' => ?_, hnodup⟩, fun n hn => ?_⟩
      · exact hs.not_mem_erase (hmem id hid')
      · rcases List.mem_cons.mp hn with rfl | hn
        · exact hid
        · exact List.mem_of_mem_erase (hmem n hn)

end Turns

/-! ## Going back -/

namespace Trail

variable {start : Ident} {labels : OrderedMap Ident (Label α)} {es : List (Edge α)}

theorem leads (h : Trail steps start labels es id c) : Edge.Leads start es id := by
  induction h with
  | here => rfl
  | step _ _ _ ih => exact Edge.leads_concat.mpr ⟨ih, rfl⟩

/-- The last edge of a trail is the entry of its last label. -/
theorem getLast?_eq (h : Trail steps start labels es id c) :
    es.getLast? = (labels.get? id).bind Label.entry := by
  cases h with
  | here hlabel => rw [hlabel]; rfl
  | step _ _ hlabel => rw [hlabel, List.getLast?_concat]; rfl

/-- Every edge of a trail is the entry of the label of its end. -/
theorem entry_eq (h : Trail steps start labels es id c) :
    ∀ e ∈ es, (labels.get? e.target).bind Label.entry = some e := by
  induction h with
  | here => exact nofun
  | step _ _ hlabel ih =>
      intro f hf
      rcases List.mem_append.mp hf with hf | hf
      · exact ih f hf
      · rw [List.mem_singleton.mp hf, hlabel]
        rfl

end Trail

end Search

/-! ## Networks with any costs -/

/-- What the items of a list without repetitions pick from another list is together no more than
what there is. -/
theorem sum_length_filter_le {β κ : Type} [BEq κ] [LawfulBEq κ] {ts : List κ} (hts : ts.Nodup)
    (key : β → κ) (l : List β) :
    (ts.map fun t => (l.filter fun b => key b == t).length).sum ≤ l.length := by
  -- The first item leaves the others what it does not pick.
  induction ts generalizing l with
  | nil => exact Nat.zero_le _
  | cons t rest ih =>
      obtain ⟨ht, hrest⟩ := List.nodup_cons.mp hts
      have hleft : ∀ u ∈ rest, (l.filter fun b => key b == u).length =
          ((l.filter fun b => !key b == t).filter fun b => key b == u).length := by
        intro u hu
        rw [List.filter_filter]
        congr 1
        refine List.filter_congr fun b _ => ?_
        by_cases hb : key b = u
        · have hne : ¬key b = t := fun h => ht (h ▸ hb ▸ hu)
          simp [hb, hb ▸ hne]
        · simp [hb]
      have hsplit := List.length_eq_length_filter_add (l := l) fun b => key b == t
      have hothers := ih hrest (l.filter fun b => !key b == t)
      rw [List.map_cons, List.sum_cons, List.map_congr_left hleft]
      omega

namespace Network

/-- The steps by which a node can be left if edges cost as given: those whose cost is there and is
not infinite. -/
def stepsAt (g : Network α) (cost : Edge α → Option α) (id : Ident) : List (Edge α × α) :=
  (g.outEdges id).filterMap fun e =>
    ((cost e).filter fun c => !Quantity.isInfinite c).map fun c => (e, c)

/-- What a search between two nodes answers if edges cost as given. -/
def searchAt (g : Network α) (cost : Edge α → Option α) (budget : Budget) (start goal : Ident) :
    Search α × Bool :=
  (Search.start g.nodes.keys start).run (g.stepsAt cost) budget goal 0

variable {g : Network α} {cost : Edge α → Option α} {start goal id : Ident}

omit [Quantity α] in
theorem length_byTarget_le (es : List (Edge α)) : (byTarget es).length ≤ es.length := by
  unfold byTarget
  rw [List.length_flatMap]
  exact sum_length_filter_le (nodup_eraseDups _) (fun e : Edge α => e.target) es

theorem source_of_mem_stepsAt {e : Edge α} {d : α} (h : (e, d) ∈ g.stepsAt cost id) :
    e.source = id := by
  obtain ⟨f, hf, hstep⟩ := List.mem_filterMap.mp h
  obtain ⟨c, -, hpair⟩ := Option.map_eq_some_iff.mp hstep
  cases hpair
  exact (mem_outEdges.mp hf).2

/-- At its start a search has one entry, and at most as many steps to look at as there are edges. -/
theorem load_start_le (g : Network α) (cost : Edge α → Option α) (start : Ident) :
    Search.load (g.stepsAt cost) (Search.start g.nodes.keys start) ≤ 1 + g.edges.length := by
  have hsteps : ∀ id, (g.stepsAt cost id).length ≤
      (g.edges.filter fun e => e.source == id).length := fun id =>
    Nat.le_trans (List.length_filterMap_le ..) (g.inStep.outEdges_eq id ▸ length_byTarget_le _)
  have hsum : (g.nodes.keys.map fun id => (g.stepsAt cost id).length).sum ≤ g.edges.length := calc
    _ ≤ (g.nodes.keys.map fun id => (g.edges.filter fun e => e.source == id).length).sum :=
      List.sum_le_sum fun id _ => hsteps id
    _ ≤ g.edges.length := sum_length_filter_le g.nodes.nodup (fun e : Edge α => e.source) g.edges
  show 1 + _ ≤ _
  exact Nat.add_le_add_left hsum 1

/-- The labels that a search leaves end trails, whatever the edges cost. -/
theorem traced_searchAt (g : Network α) (cost : Edge α → Option α) (budget : Budget)
    (start goal : Ident) :
    Search.Traced (g.stepsAt cost) start (g.searchAt cost budget start goal).1 :=
  (Search.Traced.ofStart g.nodes.nodup).run (fun _ _ _ => source_of_mem_stepsAt) budget goal 0

/-- **A search ends whatever the edges cost.** Any number of turns of a search expands no node twice
and is at most one for the start and one for each edge; after some number of turns the search stops,
and answers what it has found. If the goal then has an entry, going back from entry to entry leads
over edges that are each the entry of the node where they end, from the start to the goal, through
no node twice: the trace that is taken finds all of them, and the route goes along them. The search
for a route is this one, at what the edges cost the traveller. -/
theorem search_ends (g : Network α) (cost : Edge α → Option α) (budget : Budget)
    (start goal : Ident) :
    (∀ ids n s, Search.Turns (g.stepsAt cost) budget goal 0 (Search.start g.nodes.keys start)
        ids n s →
      ids.Nodup ∧ (∀ id ∈ ids, g.hasNode id = true) ∧ n ≤ 1 + g.edges.length) ∧
    (∃ ids n s, Search.Turns (g.stepsAt cost) budget goal 0 (Search.start g.nodes.keys start)
        ids n s ∧
      Search.Stops budget goal ids.length s (g.searchAt cost budget start goal)) ∧
    (∀ l e, (g.searchAt cost budget start goal).1.labels.get? goal = some l → l.entry = some e →
      ∃ es, es.getLast? = some e ∧
        (∀ f ∈ es, ((g.searchAt cost budget start goal).1.labels.get? f.target).bind Label.entry =
          some f) ∧
        Edge.Leads start es goal ∧ (start :: es.map fun f => f.target).Nodup ∧
        (∀ n, es.length ≤ n → Search.trace? (g.searchAt cost budget start goal).1.labels start n
          goal = some es) ∧
        Route.ofSearch start goal (g.searchAt cost budget start goal) =
          .along start es l.cost (g.searchAt cost budget start goal).2) ∧
    ∀ policy t, start ≠ goal → g.hasNode start = true → g.hasNode goal = true →
      g.route policy t budget start goal =
        .ofSearch start goal (g.searchAt (fun e => e.costFor policy t) budget start goal) := by
  refine ⟨fun ids n s hturns => ?_, ?_, fun l e hl he => ?_, fun policy t hne hstart hgoal => ?_⟩
  · obtain ⟨hnodup, hmem⟩ := hturns.nodup g.nodes.nodup
    have hload := hturns.add_load_le
    have hstart := load_start_le g cost start
    exact ⟨hnodup, fun id hid => (g.nodes.contains_iff id).mpr (hmem id hid), by omega⟩
  · obtain ⟨ids, n, s, hturns, hstops⟩ := Search.exists_turns (g.stepsAt cost) budget goal 0
      (Search.start g.nodes.keys start)
    exact ⟨ids, n, s, hturns, Nat.zero_add ids.length ▸ hstops⟩
  · obtain ⟨es, htrail, halong⟩ :=
      Route.ofSearch_along (traced_searchAt g cost budget start goal) hl
    refine ⟨es, ?_, htrail.trail.entry_eq, htrail.trail.leads, htrail.nodup,
      fun n hn => htrail.trail.trace?_eq htrail.nodup hn, halong⟩
    rw [htrail.trail.getLast?_eq, hl]
    exact he
  · exact route_eq_ofSearch policy t budget hne hstart hgoal

end Network

end RoadRules
