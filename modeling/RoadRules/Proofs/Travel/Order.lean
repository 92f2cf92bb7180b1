import RoadRules.Proofs.Number.Lawful
import RoadRules.Proofs.Travel.Trail

set_option autoImplicit false

/-! # Searches among steps that cost nothing less than zero

When no step costs less than zero and costs obey the laws of numbers, nodes are settled in the
order of their costs. A settled node then costs at most what any entry of the queue costs, and the
steps that leave it are *covered*: the label of the node where such a step ends costs no more than
the way through the settled node. So whatever a path costs, either its end is settled at no more
than that, or some entry of the queue costs no more (`reach`). At the end of a search there is
nothing in the queue in front of the goal, and the label of the goal is the least cost of a path. -/

namespace RoadRules.Search

variable {α : Type} [Quantity α]

/-- Steps between the nodes of a network that cost nothing less than zero. -/
structure Admissible (nodes : List Ident) (steps : Ident → List (Edge α × α)) : Prop where
  -- A step leaves the node that it is listed for.
  source : ∀ n e d, (e, d) ∈ steps n → e.source = n
  -- A step ends at a node of the network.
  target : ∀ n e d, (e, d) ∈ steps n → e.target ∈ nodes
  -- A step costs nothing less than zero.
  nonneg : ∀ n e d, (e, d) ∈ steps n → Quantity.zero ≤ d

variable [LawfulQuantity α]

open LawfulQuantity

/-! ## Labels only get better -/

omit [LawfulQuantity α] in
theorem improves_some {cost : α} {l : Label α} : improves cost (some l) = true ↔ cost < l.cost :=
  decide_eq_true_iff

theorem sorted_enqueue {cost : α} {id : Ident} {queue : List (α × Ident)}
    (h : queue.Pairwise fun a b => a.1 ≤ b.1) :
    (enqueue cost id queue).Pairwise fun a b => a.1 ≤ b.1 := by
  induction queue with
  | nil => simp [enqueue]
  | cons f rest ih =>
      obtain ⟨hf, hrest⟩ := List.pairwise_cons.mp h
      unfold enqueue
      split
      · rename_i hlt
        refine List.pairwise_cons.mpr ⟨?_, h⟩
        intro x hx
        rcases List.mem_cons.mp hx with rfl | hx
        · exact le_of_lt hlt
        · exact le_trans (le_of_lt hlt) (hf x hx)
      · rename_i hlt
        refine List.pairwise_cons.mpr ⟨?_, ih hrest⟩
        intro x hx
        rcases mem_enqueue.mp hx with rfl | hx
        · exact le_of_not_lt hlt
        · exact hf x hx

theorem le_of_supersedes {k l : Label α} (h : k.Supersedes l) : k.cost ≤ l.cost :=
  h.elim (fun heq => heq ▸ le_refl _) le_of_lt

theorem le_labels_foldl_relax (cost : α) {id : Ident} {l : Label α} (list : List (Edge α × α))
    {s : Search α} (hl : s.labels.get? id = some l) :
    ∃ k, (list.foldl (relax cost) s).labels.get? id = some k ∧ k.cost ≤ l.cost :=
  (supersedes_foldl_relax cost list hl).imp fun _ h => h.imp_right le_of_supersedes

/-! ## While the steps of a node are looked at -/

/-- The state of a search while it looks at the steps that leave a node of the given cost. -/
structure Expanding (nodes : List Ident) (level : α) (s : Search α) : Prop where
  -- The queue is in order.
  sorted : s.queue.Pairwise fun a b => a.1 ≤ b.1
  -- Labels have bounded costs.
  bounded : ∀ id l, s.labels.get? id = some l → Quantity.isBounded l.cost = true
  -- Settled nodes have labels.
  known : ∀ id ∈ nodes, id ∉ s.unsettled → ∃ l, s.labels.get? id = some l
  -- Settled nodes cost no more than the node.
  below : ∀ id l, id ∉ s.unsettled → s.labels.get? id = some l → l.cost ≤ level
  -- Entries cost no less than the node.
  beyond : ∀ e ∈ s.queue, level ≤ e.1

namespace Expanding

variable {nodes : List Ident} {level : α} {s : Search α} {e : Edge α} {d : α}

theorem relax (h : Expanding nodes level s) (hd : Quantity.zero ≤ d) :
    Expanding nodes level (Search.relax level s (e, d)) := by
  have hlabel : ∀ id, id ∉ s.unsettled →
      (Search.relax level s (e, d)).labels.get? id = s.labels.get? id := fun id hid =>
    get?_labels_relax hid
  refine ⟨?_, ?_, ?_, ?_, ?_⟩
  · rcases relax_cases level s e d with ⟨-, hs⟩ | ⟨-, -, hs⟩
    · rw [hs]
      exact h.sorted
    · rw [hs]
      exact sorted_enqueue h.sorted
  · intro id l hl
    rcases relax_cases level s e d with ⟨-, hs⟩ | ⟨-, himproves, hs⟩
    · rw [hs] at hl
      exact h.bounded id l hl
    · rw [hs] at hl
      by_cases hid : id = e.target
      · subst hid
        have hnew : (⟨level + d, some e⟩ : Label α) = l := by simpa using hl
        subst hnew
        cases hold : s.labels.get? e.target with
        | none => rwa [hold] at himproves
        | some k =>
            rw [hold, improves_some] at himproves
            exact isBounded_of_le (le_of_lt himproves) (h.bounded _ k hold)
      · exact h.bounded id l (by simpa [hid] using hl)
  · intro id hmem hid
    rw [unsettled_relax] at hid
    rw [hlabel id hid]
    exact h.known id hmem hid
  · intro id l hid hl
    rw [unsettled_relax] at hid
    rw [hlabel id hid] at hl
    exact h.below id l hid hl
  · intro f hf
    rcases relax_cases level s e d with ⟨-, hs⟩ | ⟨-, -, hs⟩
    · rw [hs] at hf
      exact h.beyond f hf
    · rw [hs] at hf
      rcases mem_enqueue.mp hf with rfl | hf
      · exact le_add hd
      · exact h.beyond f hf

/-- After looking at a step the node where it ends costs no more than the way by the step. -/
theorem covers (h : Expanding nodes level s) (hd : Quantity.zero ≤ d)
    (htarget : e.target ∈ nodes) (hbounded : Quantity.isBounded (level + d) = true) :
    ∃ k, (Search.relax level s (e, d)).labels.get? e.target = some k ∧ k.cost ≤ level + d := by
  rcases relax_cases level s e d with ⟨hno, hs⟩ | ⟨-, -, hs⟩
  · rw [hs]
    by_cases hsettled : e.target ∈ s.unsettled
    · cases hold : s.labels.get? e.target with
      | none => exact absurd ⟨hsettled, by rw [hold]; exact hbounded⟩ hno
      | some k =>
          have hlt : ¬level + d < k.cost := fun hlt =>
            hno ⟨hsettled, by rw [hold, improves_some]; exact hlt⟩
          exact ⟨k, rfl, le_of_not_lt hlt⟩
    · obtain ⟨k, hk⟩ := h.known _ htarget hsettled
      exact ⟨k, hk, le_trans (h.below _ k hsettled hk) (le_add hd)⟩
  · rw [hs]
    exact ⟨⟨level + d, some e⟩, by simp, le_refl _⟩

theorem foldl (h : Expanding nodes level s) {list : List (Edge α × α)}
    (hlist : ∀ step ∈ list, Quantity.zero ≤ step.2 ∧ step.1.target ∈ nodes) :
    Expanding nodes level (list.foldl (Search.relax level) s) ∧
      ∀ step ∈ list, Quantity.isBounded (level + step.2) = true →
        ∃ k, (list.foldl (Search.relax level) s).labels.get? step.1.target = some k ∧
          k.cost ≤ level + step.2 := by
  induction list generalizing s with
  | nil => exact ⟨h, by simp⟩
  | cons step rest ih =>
      obtain ⟨hnonneg, htarget⟩ := hlist step List.mem_cons_self
      have hrest := ih (h.relax (e := step.1) hnonneg) fun f hf =>
        hlist f (List.mem_cons_of_mem _ hf)
      refine ⟨hrest.1, ?_⟩
      intro f hf hbounded
      rcases List.mem_cons.mp hf with rfl | hf
      · -- covered by this step, and the rest of the steps only make the label better
        obtain ⟨k, hk, hle⟩ := h.covers hnonneg htarget hbounded
        obtain ⟨k', hk', hle'⟩ := le_labels_foldl_relax level rest hk
        exact ⟨k', hk', le_trans hle' hle⟩
      · exact hrest.2 f hf hbounded

end Expanding

/-! ## The invariant -/

/-- **The invariant of a search** among steps that cost nothing less than zero. -/
structure Ordered (nodes : List Ident) (steps : Ident → List (Edge α × α)) (s : Search α) :
    Prop where
  -- The queue is in order.
  sorted : s.queue.Pairwise fun a b => a.1 ≤ b.1
  -- Labels have bounded costs.
  bounded : ∀ id l, s.labels.get? id = some l → Quantity.isBounded l.cost = true
  -- Settled nodes have labels.
  known : ∀ id ∈ nodes, id ∉ s.unsettled → ∃ l, s.labels.get? id = some l
  -- Settled nodes cost no more than any entry.
  behind : ∀ id l, id ∉ s.unsettled → s.labels.get? id = some l → ∀ e ∈ s.queue, l.cost ≤ e.1
  -- The steps that leave a settled node are covered.
  covered : ∀ id l, id ∉ s.unsettled → s.labels.get? id = some l → ∀ e d, (e, d) ∈ steps id →
    Quantity.isBounded (l.cost + d) = true →
      ∃ k, s.labels.get? e.target = some k ∧ k.cost ≤ l.cost + d

namespace Ordered

variable {nodes : List Ident} {steps : Ident → List (Edge α × α)} {start goal id : Ident}
  {s : Search α} {c : α} {rest : List (α × Ident)}

/-- The invariant holds at the start of a search. -/
theorem ofStart (hstart : start ∈ nodes) :
    Ordered nodes steps (Search.start nodes start : Search α) := by
  have hunsettled : ∀ id (l : Label α), (Search.start nodes start).labels.get? id = some l →
      id ∈ (Search.start nodes start : Search α).unsettled := by
    intro id l hl
    rw [(labels_start hl).1]
    exact hstart
  refine ⟨by simp [Search.start], ?_, ?_, ?_, ?_⟩
  · intro id l hl
    rw [(labels_start hl).2]
    exact isBounded_zero
  · exact fun id hmem hid => absurd hmem hid
  · exact fun id l hid hl => absurd (hunsettled id l hl) hid
  · exact fun id l hid hl => absurd (hunsettled id l hl) hid

omit [LawfulQuantity α] in
/-- Dropping an entry of a settled node keeps the invariant. -/
theorem skip (h : Ordered nodes steps s) (hq : s.queue = (c, id) :: rest) :
    Ordered nodes steps { s with queue := rest } := by
  have hmem : ∀ e ∈ rest, e ∈ s.queue := fun e he => hq ▸ List.mem_cons_of_mem _ he
  have hsorted := h.sorted
  rw [hq] at hsorted
  exact ⟨(List.pairwise_cons.mp hsorted).2, h.bounded, h.known,
    fun n l hn hl e he => h.behind n l hn hl e (hmem e he), h.covered⟩

/-- A node that is settled costs what the first entry says, and that is no less than what the
nodes settled before it cost and no more than what the other entries say. -/
theorem settle (h : Ordered nodes steps s) (hq : s.queue = (c, id) :: rest) {l : Label α}
    (hl : s.labels.get? id = some l) (hcost : l.cost = c) :
    Expanding nodes c (s.settle id rest) := by
  have hsorted := h.sorted
  rw [hq] at hsorted
  obtain ⟨hfirst, hrest⟩ := List.pairwise_cons.mp hsorted
  have hsettled : ∀ n, n ∉ s.unsettled.erase id → n = id ∨ n ∉ s.unsettled := by
    intro n hn
    by_cases hne : n = id
    · exact Or.inl hne
    · exact Or.inr fun hmem => hn ((List.mem_erase_of_ne hne).mpr hmem)
  refine ⟨hrest, h.bounded, ?_, ?_, hfirst⟩
  · intro n hmem hn
    rcases hsettled n hn with rfl | hn
    · exact ⟨l, hl⟩
    · exact h.known n hmem hn
  · intro n k hn hk
    rcases hsettled n hn with rfl | hn
    · have hkl : k = l := Option.some.inj (hk.symm.trans hl)
      rw [hkl, hcost]
      exact le_refl c
    · exact h.behind n k hn hk (c, id) (hq ▸ List.mem_cons_self)

/-- Settling the node of the first entry and looking at its steps keeps the invariant. -/
theorem round (h : Ordered nodes steps s) (htraced : Traced steps start s)
    (hsteps : Admissible nodes steps) (hq : s.queue = (c, id) :: rest) (hid : id ∈ s.unsettled) :
    Ordered nodes steps ((steps id).foldl (Search.relax c) (s.settle id rest)) := by
  obtain ⟨l, hl, hcost⟩ := htraced.label_of_head hq hid
  have hlist : ∀ step ∈ steps id, Quantity.zero ≤ step.2 ∧ step.1.target ∈ nodes := fun step hs =>
    ⟨hsteps.nonneg id step.1 step.2 hs, hsteps.target id step.1 step.2 hs⟩
  obtain ⟨hexpanding, hcovered⟩ := (h.settle hq hl hcost).foldl hlist
  refine ⟨hexpanding.sorted, hexpanding.bounded, hexpanding.known, ?_, ?_⟩
  · intro n k hn hk e he
    exact le_trans (hexpanding.below n k hn hk) (hexpanding.beyond e he)
  · intro n k hn hk e d hstep hbounded
    rw [unsettled_foldl_relax] at hn
    rw [get?_labels_foldl_relax _ hn] at hk
    by_cases hne : n = id
    · -- the node that is settled now: its steps were all looked at
      subst hne
      have hkl : k = l := Option.some.inj (hk.symm.trans hl)
      rw [hkl, hcost] at hbounded ⊢
      exact hcovered (e, d) hstep hbounded
    · -- a node settled before: its steps were covered, and labels only got better
      have hn' : n ∉ s.unsettled := fun hmem => hn ((List.mem_erase_of_ne hne).mpr hmem)
      obtain ⟨k₁, hk₁, hle₁⟩ := h.covered n k hn' hk e d hstep hbounded
      obtain ⟨k₂, hk₂, hle₂⟩ : ∃ m, ((steps id).foldl (Search.relax c)
          (s.settle id rest)).labels.get? e.target = some m ∧ m.cost ≤ k₁.cost :=
        le_labels_foldl_relax c (steps id) hk₁
      refine ⟨k₂, hk₂, ?_⟩
      calc
        k₂.cost ≤ k₁.cost := hle₂
        _ ≤ k.cost + d := hle₁

end Ordered

/-! ## What the invariants say about paths -/

section Reach

variable {nodes : List Ident} {steps : Ident → List (Edge α × α)} {start goal id : Ident}
  {s : Search α} {es : List (Edge α)} {c : α}

/-- Both invariants of a search, with a goal that is not settled. -/
structure Running (nodes : List Ident) (steps : Ident → List (Edge α × α)) (start goal : Ident)
    (s : Search α) : Prop where
  -- Labels end trails.
  traced : Traced steps start s
  -- Nodes are settled in the order of their costs.
  ordered : Ordered nodes steps s
  -- The goal is not settled.
  waiting : goal ∈ s.unsettled

namespace Running

theorem ofStart (hnodup : nodes.Nodup) (hstart : start ∈ nodes) (hgoal : goal ∈ nodes) :
    Running nodes steps start goal (Search.start nodes start : Search α) :=
  ⟨.ofStart hnodup, .ofStart hstart, hgoal⟩

/-- **A search without a limit keeps its invariants.** -/
theorem run (hsteps : Admissible nodes steps) (spent : Nat)
    (h : Running nodes steps start goal s) :
    Running nodes steps start goal (s.run steps .unlimited goal spent).1 := by
  apply run_preserves _ _ _ h
  · exact fun s c id rest hq hid hs =>
      ⟨hs.traced.skip hq hid, hs.ordered.skip hq, hs.waiting⟩
  · intro s c id rest hq hid hgoal hs
    refine ⟨hs.traced.round hq hid hsteps.source, hs.ordered.round hs.traced hsteps hq hid, ?_⟩
    rw [unsettled_foldl_relax]
    exact (List.mem_erase_of_ne (Ne.symm hgoal)).mpr hs.waiting
  · rintro s c id rest hq hid ⟨n, hn⟩
    simp [Budget.allows, Budget.unlimited] at hn

/-- **Whatever a path costs, either its end is settled at no more than that, or some entry of the
queue costs no more.** -/
theorem reach (h : Running nodes steps start goal s) (hsteps : Admissible nodes steps)
    (hstart : start ∈ nodes) (hpath : Path steps start es id c)
    (hbounded : Quantity.isBounded c = true) :
    (id ∉ s.unsettled ∧ ∃ l, s.labels.get? id = some l ∧ l.cost ≤ c) ∨
      ∃ e ∈ s.queue, e.1 ≤ c := by
  induction hpath with
  | stay =>
      by_cases hs : start ∈ s.unsettled
      · right
        rw [h.traced.fresh hs]
        exact ⟨(Quantity.zero, start), by simp, le_refl _⟩
      · left
        obtain ⟨l, hl⟩ := h.ordered.known start hstart hs
        refine ⟨hs, l, hl, ?_⟩
        rw [h.traced.cost_start hl]
        exact le_refl _
  | @step es id c e d _ hstep ih =>
      have hle : c ≤ c + d := le_add (hsteps.nonneg id e d hstep)
      rcases ih (isBounded_of_le hle hbounded) with ⟨hid, l, hl, hcost⟩ | ⟨f, hf, hcost⟩
      · -- the path has left a settled node: the step is covered
        have hsum : l.cost + d ≤ c + d := add_le_add hcost (hsteps.nonneg id e d hstep)
        obtain ⟨k, hk, hle'⟩ :=
          h.ordered.covered id l hid hl e d hstep (isBounded_of_le hsum hbounded)
        have hkc : k.cost ≤ c + d := calc
          k.cost ≤ l.cost + d := hle'
          _ ≤ c + d := hsum
        by_cases htarget : e.target ∈ s.unsettled
        · right
          have hentry := h.traced.entries e.target k htarget hk
          exact ⟨(k.cost, e.target), List.mem_of_find?_eq_some hentry, hkc⟩
        · exact Or.inl ⟨htarget, k, hk, hkc⟩
      · exact Or.inr ⟨f, hf, le_trans hcost hle⟩

/-- **At the end the label of the goal is the least cost of a path.** -/
theorem cheapest (h : Running nodes steps start goal s) (hsteps : Admissible nodes steps)
    (hstart : start ∈ nodes)
    (hfinal : s.queue = [] ∨ ∃ c rest, s.queue = (c, goal) :: rest)
    (hpath : Path steps start es goal c) (hbounded : Quantity.isBounded c = true) :
    ∃ l, s.labels.get? goal = some l ∧ l.cost ≤ c := by
  obtain ⟨f, hf, hcost⟩ : ∃ e ∈ s.queue, e.1 ≤ c :=
    (h.reach hsteps hstart hpath hbounded).resolve_left fun hsettled => hsettled.1 h.waiting
  rcases hfinal with hq | ⟨b, rest, hq⟩
  · rw [hq] at hf
    cases hf
  · obtain ⟨l, hl, rfl⟩ := h.traced.label_of_head hq h.waiting
    have hsorted := h.ordered.sorted
    rw [hq] at hf hsorted
    refine ⟨l, hl, ?_⟩
    rcases List.mem_cons.mp hf with rfl | hf
    · exact hcost
    · exact le_trans ((List.pairwise_cons.mp hsorted).1 f hf) hcost

end Running

end Reach

end RoadRules.Search
