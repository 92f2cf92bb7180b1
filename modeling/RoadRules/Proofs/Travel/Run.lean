import Mathlib.Order.Defs.Unbundled
import RoadRules.Travel.Search

set_option autoImplicit false

/-! # The rounds of a search

What one round of a search does to its queue, its labels and its settled nodes, with no law of
arithmetic or of order. A round drops the entry of a settled node (`run_skip`), ends at the goal
(`run_goal`), ends because the budget is spent (`run_exhausted`), or settles a node and looks at the
steps that leave it (`run_round`). What rounds keep is kept by every run: `run_preserves`. Labels
are only ever replaced by better ones (`Label.Supersedes`). -/

namespace RoadRules

/-- Whether a label is another one, or a label of a lower cost in its place. -/
def Label.Supersedes {α : Type} [Quantity α] (k l : Label α) : Prop := k = l ∨ k.cost < l.cost

theorem Label.Supersedes.trans {α : Type} [Quantity α] [IsTrans α (· < ·)] {k l m : Label α}
    (hkl : k.Supersedes l) (hlm : l.Supersedes m) : k.Supersedes m := by
  rcases hkl with rfl | hkl
  · exact hlm
  · rcases hlm with rfl | hlm
    · exact Or.inr hkl
    · exact Or.inr (IsTrans.trans _ _ _ hkl hlm)

end RoadRules

namespace RoadRules.Search

variable {α : Type} [Quantity α]

/-! ## The queue -/

def entryOf (queue : List (α × Ident)) (id : Ident) : Option (α × Ident) :=
  queue.find? fun e => e.2 == id

theorem mem_enqueue {cost : α} {id : Ident} {queue : List (α × Ident)} {e : α × Ident} :
    e ∈ enqueue cost id queue ↔ e = (cost, id) ∨ e ∈ queue := by
  induction queue with
  | nil => simp [enqueue]
  | cons f rest ih =>
      unfold enqueue
      split
      · simp
      · simp only [List.mem_cons, ih]
        exact or_left_comm

/-- A new entry changes nothing for the other nodes. -/
theorem entryOf_enqueue_of_ne {cost : α} {id other : Ident} (h : id ≠ other)
    (queue : List (α × Ident)) :
    entryOf (enqueue cost id queue) other = entryOf queue other := by
  have hne : (id == other) = false := by simpa using h
  induction queue with
  | nil => simp [enqueue, entryOf, hne]
  | cons f rest ih =>
      unfold enqueue
      split
      · simp [entryOf, hne]
      · simp only [entryOf, List.find?_cons] at ih ⊢
        rw [ih]

/-- A new entry that costs less than the first entry of the same node comes before it. -/
theorem entryOf_enqueue_self {cost : α} {id : Ident} {queue : List (α × Ident)}
    (h : ∀ e, entryOf queue id = some e → cost < e.1) :
    entryOf (enqueue cost id queue) id = some (cost, id) := by
  induction queue with
  | nil => simp [enqueue, entryOf]
  | cons f rest ih =>
      unfold enqueue
      split
      · simp [entryOf]
      · rename_i hlt
        by_cases hf : f.2 = id
        · exact absurd (h f (by simp [entryOf, hf])) hlt
        · have hne : (f.2 == id) = false := by simpa using hf
          have hrest : ∀ e, entryOf rest id = some e → cost < e.1 := fun e he =>
            h e (by simpa [entryOf, List.find?_cons, hne] using he)
          simpa [entryOf, List.find?_cons, hne] using ih hrest

/-- At the start of a search nothing but the start has a label. -/
theorem labels_start {nodes : List Ident} {start id : Ident} {l : Label α}
    (h : (Search.start nodes start).labels.get? id = some l) :
    id = start ∧ l = ⟨Quantity.zero, none⟩ := by
  simp only [Search.start, OrderedMap.get?_insert, OrderedMap.get?_empty] at h
  split at h
  · rename_i hid
    exact ⟨hid, (Option.some.inj h).symm⟩
  · cases h

/-! ## One step that leaves a node -/

/-- Looking at a step either changes nothing or gives the node where it ends, which is not
settled, a better label and a new entry. -/
theorem relax_cases (cost : α) (s : Search α) (e : Edge α) (d : α) :
    (¬(e.target ∈ s.unsettled ∧ improves (cost + d) (s.labels.get? e.target) = true) ∧
      relax cost s (e, d) = s) ∨
    (e.target ∈ s.unsettled ∧ improves (cost + d) (s.labels.get? e.target) = true ∧
      relax cost s (e, d) =
        { s with
          queue := enqueue (cost + d) e.target s.queue
          labels := s.labels.insert e.target ⟨cost + d, some e⟩ }) := by
  by_cases h : e.target ∈ s.unsettled ∧ improves (cost + d) (s.labels.get? e.target) = true
  · exact Or.inr ⟨h.1, h.2, if_pos h⟩
  · exact Or.inl ⟨h, if_neg h⟩

/-- The label of a settled node never changes. -/
theorem get?_labels_relax {cost : α} {s : Search α} {step : Edge α × α} {id : Ident}
    (h : id ∉ s.unsettled) :
    (relax cost s step).labels.get? id = s.labels.get? id := by
  obtain ⟨e, d⟩ := step
  rcases relax_cases cost s e d with ⟨-, hs⟩ | ⟨ht, -, hs⟩
  · rw [hs]
  · have hne : id ≠ e.target := fun he => h (he ▸ ht)
    simp [hs, hne]

theorem get?_labels_foldl_relax {cost : α} {id : Ident} (steps : List (Edge α × α))
    {s : Search α} (h : id ∉ s.unsettled) :
    (steps.foldl (relax cost) s).labels.get? id = s.labels.get? id := by
  induction steps generalizing s with
  | nil => rfl
  | cons step rest ih =>
      rw [List.foldl_cons, ih (by rwa [unsettled_relax]), get?_labels_relax h]

/-- Looking at a step gives no node a worse label. -/
theorem supersedes_relax (cost : α) {s : Search α} (step : Edge α × α) {id : Ident} {l : Label α}
    (hl : s.labels.get? id = some l) :
    ∃ k, (relax cost s step).labels.get? id = some k ∧ k.Supersedes l := by
  obtain ⟨e, d⟩ := step
  rcases relax_cases cost s e d with ⟨-, hs⟩ | ⟨-, himproves, hs⟩
  · exact ⟨l, by rw [hs, hl], Or.inl rfl⟩
  · rw [hs]
    by_cases hid : id = e.target
    · subst hid
      rw [hl] at himproves
      exact ⟨⟨cost + d, some e⟩, by simp, Or.inr (of_decide_eq_true himproves)⟩
    · exact ⟨l, by simpa [hid] using hl, Or.inl rfl⟩

theorem supersedes_foldl_relax [IsTrans α (· < ·)] (cost : α) {id : Ident} {l : Label α}
    (list : List (Edge α × α)) {s : Search α} (hl : s.labels.get? id = some l) :
    ∃ k, (list.foldl (relax cost) s).labels.get? id = some k ∧ k.Supersedes l := by
  induction list generalizing s l with
  | nil => exact ⟨l, hl, Or.inl rfl⟩
  | cons step rest ih =>
      obtain ⟨k, hk, hkl⟩ := supersedes_relax cost step hl
      obtain ⟨k', hk', hkk⟩ := ih hk
      exact ⟨k', hk', hkk.trans hkl⟩

/-! ## Rounds -/

section Rounds

variable {steps : Ident → List (Edge α × α)} {budget : Budget} {goal id : Ident} {spent : Nat}
  {s : Search α} {c : α} {rest : List (α × Ident)}

theorem run_empty (hq : s.queue = []) : s.run steps budget goal spent = (s, false) := by
  unfold run
  split
  · rfl
  · rename_i h
    rw [hq] at h
    cases h

/-- What a run does with the first entry of its queue. -/
theorem run_cons (hq : s.queue = (c, id) :: rest) :
    s.run steps budget goal spent =
      if id ∈ s.unsettled then
        if id = goal then (s, false)
        else if budget.allows spent then
          ((steps id).foldl (relax c) (s.settle id rest)).run steps budget goal (spent + 1)
        else (s.settle id rest, true)
      else ({ s with queue := rest } : Search α).run steps budget goal spent := by
  rw [run]
  split
  · rename_i h
    rw [hq] at h
    cases h
  · rename_i h
    rw [hq] at h
    cases h
    rfl

theorem run_goal (hq : s.queue = (c, goal) :: rest) (hid : goal ∈ s.unsettled) :
    s.run steps budget goal spent = (s, false) := by
  rw [run_cons hq, if_pos hid, if_pos rfl]

theorem run_round (hq : s.queue = (c, id) :: rest) (hid : id ∈ s.unsettled) (hgoal : id ≠ goal)
    (hallows : budget.allows spent = true) :
    s.run steps budget goal spent =
      ((steps id).foldl (relax c) (s.settle id rest)).run steps budget goal (spent + 1) := by
  rw [run_cons hq, if_pos hid, if_neg hgoal, if_pos hallows]

theorem run_exhausted (hq : s.queue = (c, id) :: rest) (hid : id ∈ s.unsettled)
    (hgoal : id ≠ goal) (hallows : ¬budget.allows spent = true) :
    s.run steps budget goal spent = (s.settle id rest, true) := by
  rw [run_cons hq, if_pos hid, if_neg hgoal, if_neg hallows]

theorem run_skip (hq : s.queue = (c, id) :: rest) (hid : id ∉ s.unsettled) :
    s.run steps budget goal spent =
      ({ s with queue := rest } : Search α).run steps budget goal spent := by
  rw [run_cons hq, if_neg hid]

/-- **What rounds keep is kept by every run.** -/
theorem run_preserves {P : Search α → Prop}
    (hskip : ∀ (s : Search α) c id rest, s.queue = (c, id) :: rest → id ∉ s.unsettled → P s →
      P { s with queue := rest })
    (hround : ∀ (s : Search α) c id rest, s.queue = (c, id) :: rest → id ∈ s.unsettled →
      id ≠ goal → P s → P ((steps id).foldl (relax c) (s.settle id rest)))
    (hsettle : ∀ (s : Search α) c id rest, s.queue = (c, id) :: rest → id ∈ s.unsettled →
      (∃ n, ¬budget.allows n = true) → P s → P (s.settle id rest))
    (h : P s) : P (s.run steps budget goal spent).1 := by
  induction spent, s using run.induct steps budget goal with
  | case1 spent s hq => rwa [run_empty hq]
  | case2 spent s c rest hq hid => rwa [run_goal hq hid]
  | case3 spent s c id rest hq hid hgoal hallows ih =>
      rw [run_round hq hid hgoal hallows]
      exact ih (hround s c id rest hq hid hgoal h)
  | case4 spent s c id rest hq hid hgoal hallows =>
      rw [run_exhausted hq hid hgoal hallows]
      exact hsettle s c id rest hq hid ⟨spent, hallows⟩ h
  | case5 spent s c id rest hq hid ih =>
      rw [run_skip hq hid]
      exact ih (hskip s c id rest hq hid h)

/-- A run that is not cut short ends with an empty queue or with the goal in front. -/
theorem run_final (h : (s.run steps budget goal spent).2 = false) :
    (s.run steps budget goal spent).1.queue = [] ∨
      ∃ c rest, (s.run steps budget goal spent).1.queue = (c, goal) :: rest := by
  induction spent, s using run.induct steps budget goal with
  | case1 spent s hq =>
      rw [run_empty hq]
      exact Or.inl hq
  | case2 spent s c rest hq hid =>
      rw [run_goal hq hid]
      exact Or.inr ⟨c, rest, hq⟩
  | case3 spent s c id rest hq hid hgoal hallows ih =>
      rw [run_round hq hid hgoal hallows] at h ⊢
      exact ih h
  | case4 spent s c id rest hq hid hgoal hallows =>
      rw [run_exhausted hq hid hgoal hallows] at h
      cases h
  | case5 spent s c id rest hq hid ih =>
      rw [run_skip hq hid] at h ⊢
      exact ih h

theorem run_unlimited : (s.run steps .unlimited goal spent).2 = false := by
  induction spent, s using run.induct steps .unlimited goal with
  | case1 spent s hq => rw [run_empty hq]
  | case2 spent s c rest hq hid => rw [run_goal hq hid]
  | case3 spent s c id rest hq hid hgoal hallows ih => rwa [run_round hq hid hgoal hallows]
  | case4 spent s c id rest hq hid hgoal hallows =>
      simp [Budget.allows, Budget.unlimited] at hallows
  | case5 spent s c id rest hq hid ih => rwa [run_skip hq hid]

end Rounds

end RoadRules.Search
