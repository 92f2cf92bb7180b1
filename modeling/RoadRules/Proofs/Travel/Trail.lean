import Mathlib.Data.List.Perm.Subperm
import RoadRules.Proofs.Travel.Path
import RoadRules.Proofs.Travel.Run

set_option autoImplicit false

/-! # Trails of a search

Going back from a label by its entry, and from the label of the node before it, leads to the start.
This file shows that it does so after every round of a search, whatever the costs are: no law of
arithmetic or of order is used, so the results hold for negative costs and for undefined numbers
too.

The reason is that a label never changes once its node is settled, and that the entry of a label
always comes from a settled node. A node that is not settled may get a better label at any time,
but only its own trail is affected by that. The other half of the invariant is about the queue: the
first entry of a node that is not settled has the cost of its label, so a node is settled at the
cost that its label says, and older entries of the same node are never looked at. -/

namespace RoadRules

namespace Search

variable {α : Type} [Quantity α]

/-! ## Trails -/

section Trails

variable (steps : Ident → List (Edge α × α)) (start : Ident)

/-- The edges from the start to a node by the entries of labels, with the cost of the last
label. -/
inductive Trail (labels : OrderedMap Ident (Label α)) : List (Edge α) → Ident → α → Prop
  -- The start has no entry and costs nothing.
  | here : labels.get? start = some ⟨Quantity.zero, none⟩ → Trail labels [] start Quantity.zero
  -- The cost of a label is that of the node before it and that of the step between them.
  | step {es : List (Edge α)} {c : α} {e : Edge α} {d : α} :
      Trail labels es e.source c → (e, d) ∈ steps e.source →
        labels.get? e.target = some ⟨c + d, some e⟩ →
          Trail labels (es ++ [e]) e.target (c + d)

/-- The nodes that a list of edges comes through from a start on. -/
def nodesOn (es : List (Edge α)) : List Ident := start :: es.map fun e => e.target

variable {steps start}
variable {labels labels' : OrderedMap Ident (Label α)} {es : List (Edge α)} {id : Ident} {c : α}

omit [Quantity α] in
theorem nodesOn_concat (e : Edge α) :
    nodesOn start (es ++ [e]) = nodesOn start es ++ [e.target] := by
  simp [nodesOn]

namespace Trail

theorem path (h : Trail steps start labels es id c) : Path steps start es id c := by
  induction h with
  | here => exact .stay
  | step _ hstep _ ih => exact .step ih hstep

theorem mem_keys (h : Trail steps start labels es id c) :
    ∀ n ∈ nodesOn start es, n ∈ labels.keys := by
  induction h with
  | here h =>
      intro n hn
      cases List.mem_singleton.mp hn
      exact OrderedMap.mem_keys_of_get? h
  | step _ _ hlabel ih =>
      intro n hn
      rw [nodesOn_concat, List.mem_append, List.mem_singleton] at hn
      rcases hn with hn | rfl
      · exact ih n hn
      · exact OrderedMap.mem_keys_of_get? hlabel

/-- A trail stays where the labels of its nodes stay. -/
theorem congr (h : Trail steps start labels es id c)
    (hsame : ∀ n ∈ nodesOn start es, labels'.get? n = labels.get? n) :
    Trail steps start labels' es id c := by
  induction h with
  | here h => exact .here ((hsame start List.mem_cons_self).trans h)
  | @step es c e d _ hstep hlabel ih =>
      rw [nodesOn_concat] at hsame
      refine .step (ih fun n hn => hsame n (List.mem_append_left _ hn)) hstep ?_
      rw [hsame e.target (by simp), hlabel]

/-- Going back from a node of a trail without repetitions gives the edges of the trail. -/
theorem trace?_eq (h : Trail steps start labels es id c) (hnodup : (nodesOn start es).Nodup)
    {n : Nat} (hn : es.length ≤ n) : trace? labels start n id = some es := by
  induction h generalizing n with
  | here => cases n <;> simp [trace?]
  | @step es c e d _ _ hlabel ih =>
      rw [nodesOn_concat, List.nodup_append] at hnodup
      have hne : e.target ≠ start := fun he =>
        hnodup.2.2 start List.mem_cons_self e.target (by simp) he.symm
      cases n with
      | zero => simp at hn
      | succ n =>
          have hlen : es.length ≤ n := by simpa using hn
          simp [trace?, hne, hlabel, ih hnodup.1 hlen]

/-- A trail without repetitions is shorter than the list of labels is long. -/
theorem length_lt_size (h : Trail steps start labels es id c)
    (hnodup : (nodesOn start es).Nodup) : es.length < labels.size := by
  have hle := (List.subperm_of_subset hnodup fun n hn => h.mem_keys n hn).length_le
  simp only [nodesOn, OrderedMap.keys, List.length_cons, List.length_map] at hle
  exact hle

end Trail

end Trails

/-! ## The invariant -/

section Traced

variable (steps : Ident → List (Edge α × α)) (start : Ident)

/-- A trail to a node on which every other node is settled and no node occurs twice. -/
structure SettledTrail (s : Search α) (es : List (Edge α)) (id : Ident) (c : α) : Prop where
  -- The edges are those of the entries.
  trail : Trail steps start s.labels es id c
  -- No node occurs twice.
  nodup : (nodesOn start es).Nodup
  -- All nodes but the last are settled.
  settled : ∀ n ∈ nodesOn start es, n ≠ id → n ∉ s.unsettled

/-- **The invariant of a search** whatever the costs are. -/
structure Traced (s : Search α) : Prop where
  -- No node waits twice to be settled.
  nodup : s.unsettled.Nodup
  -- Before the start is settled, nothing else is looked at.
  fresh : start ∈ s.unsettled → s.queue = [(Quantity.zero, start)]
  -- Every label ends a trail of settled nodes.
  trails : ∀ id l, s.labels.get? id = some l → ∃ es, SettledTrail steps start s es id l.cost
  -- Only nodes with labels wait in the queue.
  labelled : ∀ e ∈ s.queue, ∃ l, s.labels.get? e.2 = some l
  -- The first entry of a node that is not settled has the cost of its label.
  entries : ∀ id l, id ∈ s.unsettled → s.labels.get? id = some l →
    entryOf s.queue id = some (l.cost, id)

variable {steps start} {s : Search α} {id : Ident} {c : α} {rest : List (α × Ident)}

/-- The trail of a label stays while the labels of its nodes stay and more nodes are settled. -/
theorem SettledTrail.mono {s' : Search α} {es : List (Edge α)}
    (h : SettledTrail steps start s es id c)
    (hlabels : ∀ n ∈ nodesOn start es, s'.labels.get? n = s.labels.get? n)
    (hsettled : ∀ n, n ∉ s.unsettled → n ∉ s'.unsettled) :
    SettledTrail steps start s' es id c :=
  ⟨h.trail.congr hlabels, h.nodup, fun n hn hne => hsettled n (h.settled n hn hne)⟩

section NewLabel

variable {es : List (Edge α)} {e : Edge α} {queue : List (α × Ident)}

/-- A new label of another node that is not settled does not touch the trail of a label. -/
theorem SettledTrail.insert (h : SettledTrail steps start s es id c) (hne : id ≠ e.target)
    (htarget : e.target ∈ s.unsettled) {l : Label α} :
    SettledTrail steps start { s with queue := queue, labels := s.labels.insert e.target l }
      es id c := by
  refine h.mono ?_ fun _ hm => hm
  intro m hm
  have hmt : m ≠ e.target := by
    rintro rfl
    exact h.settled _ hm (fun he => hne he.symm) htarget
  simp [hmt]

/-- The trail of a settled node goes on by a step to a node that is not settled and gets its label
from the step. -/
theorem SettledTrail.concat (h : SettledTrail steps start s es id c) (hid : id ∉ s.unsettled)
    (htarget : e.target ∈ s.unsettled) {d : α} (hstep : (e, d) ∈ steps id)
    (hsource : e.source = id) :
    SettledTrail steps start
      { s with queue := queue, labels := s.labels.insert e.target ⟨c + d, some e⟩ }
      (es ++ [e]) e.target (c + d) := by
  have hall : ∀ m ∈ nodesOn start es, m ∉ s.unsettled := by
    intro m hm
    by_cases hmid : m = id
    · exact hmid ▸ hid
    · exact h.settled m hm hmid
  have hnew : ∀ m ∈ nodesOn start es, m ≠ e.target := fun m hm he => hall m hm (he ▸ htarget)
  refine ⟨.step ?_ (hsource ▸ hstep) (by simp), ?_, ?_⟩
  · rw [hsource]
    exact h.trail.congr fun m hm => by simp [hnew m hm]
  · rw [nodesOn_concat, List.nodup_append]
    refine ⟨h.nodup, by simp, ?_⟩
    intro a ha b hb
    rw [List.mem_singleton.mp hb]
    exact hnew a ha
  · intro m hm hne
    rw [nodesOn_concat, List.mem_append, List.mem_singleton] at hm
    exact hall m (hm.resolve_right hne)

end NewLabel

namespace Traced

/-- The invariant holds at the start of a search. -/
theorem ofStart {nodes : List Ident} (h : nodes.Nodup) :
    Traced steps start (Search.start nodes start : Search α) := by
  refine ⟨h, fun _ => rfl, ?_, ?_, ?_⟩
  · intro id l hl
    obtain ⟨rfl, rfl⟩ := labels_start hl
    exact ⟨[], .here hl, by simp [nodesOn], by simp [nodesOn]⟩
  · intro e he
    cases List.mem_singleton.mp he
    exact ⟨⟨Quantity.zero, none⟩, by simp [Search.start]⟩
  · intro id l _ hl
    obtain ⟨rfl, rfl⟩ := labels_start hl
    simp [Search.start, entryOf]

/-- Dropping an entry of a settled node keeps the invariant. -/
theorem skip (h : Traced steps start s) (hq : s.queue = (c, id) :: rest)
    (hid : id ∉ s.unsettled) : Traced steps start { s with queue := rest } := by
  refine ⟨h.nodup, ?_, ?_, ?_, ?_⟩
  · intro hs
    have hhead := h.fresh hs
    rw [hq, List.cons.injEq, Prod.mk.injEq] at hhead
    exact absurd (hhead.1.2 ▸ hs) hid
  · intro n l hl
    obtain ⟨es, ht⟩ := h.trails n l hl
    exact ⟨es, ht.mono (fun _ _ => rfl) fun _ hn => hn⟩
  · exact fun e he => h.labelled e (hq ▸ List.mem_cons_of_mem _ he)
  · intro n l hn hl
    have hne : (id == n) = false := by
      simp only [beq_eq_false_iff_ne, ne_eq]
      exact fun he => hid (he ▸ hn)
    have hentry := h.entries n l hn hl
    rwa [hq, entryOf, List.find?_cons, hne] at hentry

theorem cost_start (h : Traced steps start s) {l : Label α}
    (hl : s.labels.get? start = some l) : l.cost = Quantity.zero := by
  obtain ⟨es, htrail, hnodup, -⟩ := h.trails start l hl
  generalize hcost : l.cost = c at htrail
  generalize hid : start = id at htrail
  cases htrail with
  | here => rfl
  | step =>
      rw [nodesOn_concat, List.nodup_append] at hnodup
      exact absurd hid (hnodup.2.2 start List.mem_cons_self _ (by simp))

/-- A node that is settled now is settled at the cost of its label. -/
theorem label_of_head (h : Traced steps start s) (hq : s.queue = (c, id) :: rest)
    (hid : id ∈ s.unsettled) : ∃ l, s.labels.get? id = some l ∧ l.cost = c := by
  obtain ⟨l, hl⟩ := h.labelled (c, id) (hq ▸ List.mem_cons_self)
  have hentry := h.entries id l hid hl
  rw [hq] at hentry
  simp only [entryOf, List.find?_cons, beq_self_eq_true, Option.some.injEq, Prod.mk.injEq,
    and_true] at hentry
  exact ⟨l, hl, hentry.symm⟩

/-- Settling the node of the first entry keeps the invariant. -/
theorem settle (h : Traced steps start s) (hq : s.queue = (c, id) :: rest) :
    Traced steps start (s.settle id rest) ∧ start ∉ (s.settle id rest).unsettled := by
  have hstart : start ∉ s.unsettled.erase id := by
    intro hs
    have hhead := h.fresh (List.mem_of_mem_erase hs)
    rw [hq, List.cons.injEq, Prod.mk.injEq] at hhead
    exact h.nodup.not_mem_erase (hhead.1.2 ▸ hs)
  refine ⟨⟨h.nodup.erase id, fun hs => absurd hs hstart, ?_, ?_, ?_⟩, hstart⟩
  · intro n l hl
    obtain ⟨es, ht⟩ := h.trails n l hl
    exact ⟨es, ht.mono (fun _ _ => rfl) fun _ hn hmem => hn (List.mem_of_mem_erase hmem)⟩
  · exact fun e he => h.labelled e (hq ▸ List.mem_cons_of_mem _ he)
  · intro n l hn hl
    have hne : (id == n) = false := by
      simp only [beq_eq_false_iff_ne, ne_eq]
      rintro rfl
      exact h.nodup.not_mem_erase hn
    have hentry := h.entries n l (List.mem_of_mem_erase hn) hl
    rwa [hq, entryOf, List.find?_cons, hne] at hentry

/-- The entry of a better label comes before the older entries of its node. -/
theorem entryOf_improved (h : Traced steps start s) {e : Edge α} {cost : α}
    (htarget : e.target ∈ s.unsettled)
    (himproves : improves cost (s.labels.get? e.target) = true) :
    entryOf (enqueue cost e.target s.queue) e.target = some (cost, e.target) := by
  apply entryOf_enqueue_self
  intro f hf
  obtain ⟨k, hk⟩ := h.labelled f (List.mem_of_find?_eq_some hf)
  have hfn : f.2 = e.target := by simpa using List.find?_some hf
  rw [hfn] at hk
  rw [hk] at himproves
  have hentry := h.entries _ k htarget hk
  rw [hf, Option.some.injEq] at hentry
  rw [hentry]
  exact of_decide_eq_true himproves

/-- Looking at a step that leaves a settled node keeps the invariant. -/
theorem relax (h : Traced steps start s) (hstart : start ∉ s.unsettled) {l : Label α}
    (hid : id ∉ s.unsettled) (hl : s.labels.get? id = some l) {e : Edge α} {d : α}
    (hstep : (e, d) ∈ steps id) (hsource : e.source = id) :
    Traced steps start (Search.relax l.cost s (e, d)) := by
  rcases relax_cases l.cost s e d with ⟨-, hs⟩ | ⟨htarget, himproves, hs⟩
  · rwa [hs]
  rw [hs]
  refine ⟨h.nodup, fun hmem => absurd hmem hstart, ?_, ?_, ?_⟩
  · intro n k hk
    by_cases hn : n = e.target
    · subst hn
      obtain ⟨es, ht⟩ := h.trails id l hl
      have hlabel : k = ⟨l.cost + d, some e⟩ := by simpa using hk.symm
      subst hlabel
      exact ⟨es ++ [e], ht.concat hid htarget hstep hsource⟩
    · have hk' : s.labels.get? n = some k := by simpa [hn] using hk
      obtain ⟨es, ht⟩ := h.trails n k hk'
      exact ⟨es, ht.insert hn htarget⟩
  · intro f hf
    rcases mem_enqueue.mp hf with rfl | hf
    · exact ⟨_, by simp; rfl⟩
    · by_cases hft : f.2 = e.target
      · exact ⟨_, by simp [hft]; rfl⟩
      · obtain ⟨k, hk⟩ := h.labelled f hf
        exact ⟨k, by simpa [hft] using hk⟩
  · intro n k hn hk
    by_cases hnt : n = e.target
    · subst hnt
      have hlabel : k = ⟨l.cost + d, some e⟩ := by simpa using hk.symm
      subst hlabel
      exact h.entryOf_improved htarget himproves
    · have hk' : s.labels.get? n = some k := by simpa [hnt] using hk
      rw [entryOf_enqueue_of_ne (fun he => hnt he.symm)]
      exact h.entries n k hn hk'

/-- Looking at some of the steps that leave a settled node keeps the invariant. -/
theorem foldl_relax (h : Traced steps start s) (hstart : start ∉ s.unsettled) {l : Label α}
    (hid : id ∉ s.unsettled) (hl : s.labels.get? id = some l)
    (hsource : ∀ n e d, (e, d) ∈ steps n → e.source = n) {some : List (Edge α × α)}
    (hsome : ∀ step ∈ some, step ∈ steps id) :
    Traced steps start (some.foldl (Search.relax l.cost) s) := by
  induction some generalizing s with
  | nil => exact h
  | cons step rest ih =>
      have hstep := hsome step List.mem_cons_self
      rw [List.foldl_cons]
      apply ih
      · exact h.relax hstart hid hl hstep (hsource id _ _ hstep)
      · rwa [unsettled_relax]
      · rwa [unsettled_relax]
      · rwa [get?_labels_relax hid]
      · exact fun f hf => hsome f (List.mem_cons_of_mem _ hf)

/-- Settling the node of the first entry and looking at its steps keeps the invariant. -/
theorem round (h : Traced steps start s) (hq : s.queue = (c, id) :: rest)
    (hid : id ∈ s.unsettled) (hsource : ∀ n e d, (e, d) ∈ steps n → e.source = n) :
    Traced steps start ((steps id).foldl (Search.relax c) (s.settle id rest)) := by
  obtain ⟨l, hl, rfl⟩ := h.label_of_head hq hid
  obtain ⟨hsettle, hstart⟩ := h.settle hq
  exact hsettle.foldl_relax hstart h.nodup.not_mem_erase hl hsource fun _ hf => hf

/-- **Every run keeps the invariant**, whatever the costs are and however far the budget goes. -/
theorem run (hsource : ∀ n e d, (e, d) ∈ steps n → e.source = n) (budget : Budget)
    (goal : Ident) (spent : Nat) (h : Traced steps start s) :
    Traced steps start (s.run steps budget goal spent).1 := by
  apply run_preserves _ _ _ h
  · exact fun s c id rest hq hid hs => hs.skip hq hid
  · exact fun s c id rest hq hid _ hs => hs.round hq hid hsource
  · exact fun s c id rest hq _ _ hs => (hs.settle hq).1

end Traced

end Traced

end Search

/-! ## The route that a search has found -/

namespace Route

variable {α : Type} [Quantity α] {steps : Ident → List (Edge α × α)} {start goal : Ident}
  {outcome : Search α × Bool}

omit [Quantity α] in
/-- A search without a label for its goal has found no route. -/
theorem ofSearch_missing (h : outcome.1.labels.get? goal = none) :
    ofSearch start goal outcome = missing outcome.2 := by
  simp [ofSearch, h]

/-- A search with a label for its goal has found the route along the trail that the label ends. -/
theorem ofSearch_along (h : Search.Traced steps start outcome.1) {l : Label α}
    (hl : outcome.1.labels.get? goal = some l) :
    ∃ es, Search.SettledTrail steps start outcome.1 es goal l.cost ∧
      ofSearch start goal outcome = along start es l.cost outcome.2 := by
  obtain ⟨es, ht⟩ := h.trails goal l hl
  have hlen : es.length ≤ outcome.1.labels.size :=
    Nat.le_of_lt (ht.trail.length_lt_size ht.nodup)
  refine ⟨es, ht, ?_⟩
  simp [ofSearch, hl, ht.trail.trace?_eq ht.nodup hlen]

end Route

namespace Network

variable {α : Type} {g : Network α} {start goal : Ident}

theorem mem_keys_of_hasNode {id : Ident} (h : g.hasNode id = true) : id ∈ g.nodes.keys :=
  (g.nodes.contains_iff id).mp h

variable [Quantity α]

/-- Between two different nodes of the network a route is what the search has found. -/
theorem route_eq_ofSearch (policy : Policy α) (t : Traveller α) (budget : Budget)
    (hne : start ≠ goal) (hstart : g.hasNode start = true) (hgoal : g.hasNode goal = true) :
    g.route policy t budget start goal = .ofSearch start goal
      ((Search.start g.nodes.keys start).run (g.steps policy t) budget goal 0) := by
  simp [route, hne, hstart, hgoal]

/-- The invariant holds at the end of every search of a network. -/
theorem traced_search (g : Network α) (policy : Policy α) (t : Traveller α) (budget : Budget)
    (start goal : Ident) :
    Search.Traced (g.steps policy t) start
      ((Search.start g.nodes.keys start).run (g.steps policy t) budget goal 0).1 :=
  (Search.Traced.ofStart g.nodes.nodup).run (fun _ _ _ h => (mem_steps.mp h).2.1) budget goal 0

end Network

end RoadRules
