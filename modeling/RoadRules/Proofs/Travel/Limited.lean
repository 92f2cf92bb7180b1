import RoadRules.Proofs.Travel.Cheapest

set_option autoImplicit false

/-! # Routes under budgets

A search with a budget is the search without one, cut off at some round. If it is not cut off, no
greater budget changes anything; if it is, the label of the goal is one that a longer search only
replaces by better ones. Every round that counts settles a node other than the goal, so a budget of
one unit less than there are nodes is enough (`Router.route_units`). Costs may be negative or
undefined: nothing is used of them but that less than less is less. -/

namespace RoadRules

/-! ## Greater budgets -/

namespace Budget

/-- Whether a budget allows no more than another one. -/
def Within (b b' : Budget) : Prop := ∀ n, b.allows n = true → b'.allows n = true

theorem units_within {k k' : Int} (h : k ≤ k') : (units k).Within (units k') := by
  intro n hn
  rw [allows_units] at hn ⊢
  omega

theorem within_unlimited (b : Budget) : b.Within unlimited := fun _ _ => rfl

end Budget

namespace Search

variable {α : Type} [Quantity α] {steps : Ident → List (Edge α × α)} {b b' : Budget}
  {goal id : Ident} {spent : Nat} {s : Search α} {l : Label α}

/-- A search that is not cut off goes on the same with a greater budget. -/
theorem run_eq_of_within (hbudget : b.Within b') (h : (s.run steps b goal spent).2 = false) :
    s.run steps b' goal spent = s.run steps b goal spent := by
  induction spent, s using run.induct steps b goal with
  | case1 spent s hq => rw [run_empty hq, run_empty hq]
  | case2 spent s c rest hq hid => rw [run_goal hq hid, run_goal hq hid]
  | case3 spent s c id rest hq hid hgoal hallows ih =>
      rw [run_round hq hid hgoal hallows] at h ⊢
      rw [run_round hq hid hgoal (hbudget _ hallows)]
      exact ih h
  | case4 spent s c id rest hq hid hgoal hallows =>
      rw [run_exhausted hq hid hgoal hallows] at h
      cases h
  | case5 spent s c id rest hq hid ih =>
      rw [run_skip hq hid] at h ⊢
      rw [run_skip hq hid]
      exact ih h

/-- **A search gives no node a worse label**, however far its budget goes. -/
theorem supersedes_run [IsTrans α (· < ·)] (hl : s.labels.get? id = some l) :
    ∃ k, (s.run steps b goal spent).1.labels.get? id = some k ∧ k.Supersedes l := by
  apply run_preserves (P := fun s => ∃ k, s.labels.get? id = some k ∧ k.Supersedes l)
  · exact fun s c n rest _ _ h => h
  · rintro s c n rest _ _ _ ⟨k, hk, hkl⟩
    have hsettled : (s.settle n rest).labels.get? id = some k := hk
    obtain ⟨k', hk', hkk⟩ := supersedes_foldl_relax c (steps n) hsettled
    exact ⟨k', hk', hkk.trans hkl⟩
  · exact fun s c n rest _ _ _ h => h
  · exact ⟨l, hl, Or.inl rfl⟩

/-- A label that a search has found is there, or a better one, after the search with a greater
budget. -/
theorem supersedes_of_within [IsTrans α (· < ·)] (hbudget : b.Within b')
    (hl : (s.run steps b goal spent).1.labels.get? id = some l) :
    ∃ k, (s.run steps b' goal spent).1.labels.get? id = some k ∧ k.Supersedes l := by
  -- Both go through the same rounds until the smaller budget is spent.
  induction spent, s using run.induct steps b goal with
  | case1 spent s hq =>
      rw [run_empty hq] at hl ⊢
      exact ⟨l, hl, Or.inl rfl⟩
  | case2 spent s c rest hq hid =>
      rw [run_goal hq hid] at hl ⊢
      exact ⟨l, hl, Or.inl rfl⟩
  | case3 spent s c id rest hq hid hgoal hallows ih =>
      rw [run_round hq hid hgoal hallows] at hl
      rw [run_round hq hid hgoal (hbudget _ hallows)]
      exact ih hl
  | case4 spent s c id rest hq hid hgoal hallows =>
      rw [run_exhausted hq hid hgoal hallows] at hl
      exact supersedes_run (s := s) hl
  | case5 spent s c id rest hq hid ih =>
      rw [run_skip hq hid] at hl ⊢
      exact ih hl

/-- **A search is not cut off** if its budget has a unit for every node to settle but the goal. -/
theorem run_units {k : Int} (hgoal : goal ∈ s.unsettled)
    (hlimit : (spent + s.unsettled.length : Int) ≤ k + 1) :
    (s.run steps (.units k) goal spent).2 = false := by
  induction spent, s using run.induct steps (.units k) goal with
  | case1 spent s hq => rw [run_empty hq]
  | case2 spent s c rest hq hid => rw [run_goal hq hid]
  | case3 spent s c id rest hq hid hne hallows ih =>
      rw [run_round hq hid hne hallows]
      have hlength := List.length_erase_of_mem hid
      have hpos := List.length_pos_of_mem hid
      apply ih
      · rw [unsettled_foldl_relax]
        exact (List.mem_erase_of_ne (Ne.symm hne)).mpr hgoal
      · rw [unsettled_foldl_relax]
        simp only [settle]
        omega
  | case4 spent s c id rest hq hid hne hallows =>
      -- The node and the goal are both unsettled, so a unit is left.
      have hlength := List.length_erase_of_mem hid
      have hother := List.length_pos_of_mem ((List.mem_erase_of_ne (Ne.symm hne)).mpr hgoal)
      rw [Budget.allows_units] at hallows
      omega
  | case5 spent s c id rest hq hid ih =>
      rw [run_skip hq hid]
      exact ih hgoal hlimit

end Search

/-! ## Routes -/

namespace Route

variable {α : Type} [Quantity α] {steps : Ident → List (Edge α × α)} {start goal : Ident}
  {outcome outcome' : Search α × Bool}

/-- Whether a route is found at a cost that is that of another one, or less. -/
def NoDearer (r' r : Route α) : Prop :=
  r'.found = true ∧ ∃ c c', r.cost = some c ∧ r'.cost = some c' ∧ (c' = c ∨ c' < c)

omit [Quantity α] in
theorem truncated_ofSearch : (ofSearch start goal outcome).truncated = outcome.2 := by
  unfold ofSearch
  dsimp only
  split <;> rfl

/-- A better label for the goal makes a route that costs no more. -/
theorem noDearer_ofSearch (h : Search.Traced steps start outcome.1)
    (h' : Search.Traced steps start outcome'.1)
    (hbetter : ∀ l, outcome.1.labels.get? goal = some l →
      ∃ k, outcome'.1.labels.get? goal = some k ∧ k.Supersedes l)
    (hfound : (ofSearch start goal outcome).found = true) :
    (ofSearch start goal outcome').NoDearer (ofSearch start goal outcome) := by
  cases hl : outcome.1.labels.get? goal with
  | none =>
      rw [ofSearch_missing hl] at hfound
      cases hfound
  | some l =>
      obtain ⟨k, hk, hkl⟩ := hbetter l hl
      obtain ⟨es, -, hroute⟩ := ofSearch_along h hl
      obtain ⟨es', -, hroute'⟩ := ofSearch_along h' hk
      rw [hroute, hroute']
      exact ⟨rfl, l.cost, k.cost, rfl, rfl, hkl.imp_left (congrArg Label.cost)⟩

end Route

/-! ## Routers -/

namespace Router

variable {α : Type} [Quantity α]

/-- **Budgets cut one and the same search.** Between two different nodes of the network a route that
is not cut short stays the same with every greater budget and without one; a route that is found
although it was cut short is found with every greater budget and without one, and costs no more;
with a budget of nothing no route is found; and a budget of one unit less than there are nodes cuts
nothing short. -/
theorem route_units [IsTrans α (· < ·)] (r : Router α) (t : Traveller α) {start goal : Ident}
    (hne : start ≠ goal) (hstart : r.network.hasNode start = true)
    (hgoal : r.network.hasNode goal = true) :
    (∀ k k' : Int, k ≤ k' → (r.route t (.units k) start goal).truncated = false →
      r.route t (.units k') start goal = r.route t (.units k) start goal ∧
        r.route t .unlimited start goal = r.route t (.units k) start goal) ∧
    (∀ k k' : Int, k ≤ k' → (r.route t (.units k) start goal).truncated = true →
      (r.route t (.units k) start goal).found = true →
        (r.route t (.units k') start goal).NoDearer (r.route t (.units k) start goal) ∧
          (r.route t .unlimited start goal).NoDearer (r.route t (.units k) start goal)) ∧
    (∀ k : Int, k ≤ 0 → r.route t (.units k) start goal = .missing true) ∧
    ∀ k : Int, (r.network.nodes.size : Int) - 1 ≤ k →
      (r.route t (.units k) start goal).truncated = false := by
  have hroute : ∀ b, r.route t b start goal = .ofSearch start goal
      ((Search.start r.network.nodes.keys start).run (r.network.steps r.policy t) b goal 0) :=
    fun b => Network.route_eq_ofSearch r.policy t b hne hstart hgoal
  have htraced := fun b => r.network.traced_search r.policy t b start goal
  have hstays : ∀ b b' : Budget, b.Within b' → (r.route t b start goal).truncated = false →
      r.route t b' start goal = r.route t b start goal := by
    intro b b' hbudget h
    rw [hroute, Route.truncated_ofSearch] at h
    rw [hroute, hroute, Search.run_eq_of_within hbudget h]
  have hbetter : ∀ b b' : Budget, b.Within b' → (r.route t b start goal).found = true →
      (r.route t b' start goal).NoDearer (r.route t b start goal) := by
    intro b b' hbudget h
    rw [hroute] at h
    rw [hroute, hroute]
    exact Route.noDearer_ofSearch (htraced b) (htraced b')
      (fun l hl => Search.supersedes_of_within hbudget hl) h
  refine ⟨fun k k' hk h => ⟨?_, ?_⟩, fun k k' hk _ h => ⟨?_, ?_⟩, fun k hk => ?_, fun k hk => ?_⟩
  · exact hstays _ _ (Budget.units_within hk) h
  · exact hstays _ _ (Budget.within_unlimited _) h
  · exact hbetter _ _ (Budget.units_within hk) h
  · exact hbetter _ _ (Budget.within_unlimited _) h
  · have hspent : ¬ (Budget.units k).allows 0 = true := by
      rw [Budget.allows_units]
      omega
    rw [hroute, Search.run_exhausted rfl (Network.mem_keys_of_hasNode hstart) hne hspent]
    exact Route.ofSearch_missing (by simp [Search.start, Search.settle, Ne.symm hne])
  · rw [hroute, Route.truncated_ofSearch]
    apply Search.run_units (Network.mem_keys_of_hasNode hgoal)
    have hsize : (Search.start r.network.nodes.keys start : Search α).unsettled.length =
        r.network.nodes.size := List.length_map ..
    omega

/-- With one unit the search over the triangle settles the start and stops in front of the detour,
so that it only knows the direct edges. -/
theorem route_units_triangle :
    (overTriangle.route earlyCar (.units 1) (.number 1) (.number 3)).truncated = true ∧
      (overTriangle.route earlyCar (.units 1) (.number 1) (.number 3)).cost = some 3 ∧
      (overTriangle.route earlyCar (.units 2) (.number 1) (.number 3)).NoDearer
        (overTriangle.route earlyCar (.units 1) (.number 1) (.number 3)) ∧
      (overTriangle.route earlyCar (.units 2) (.number 1) (.number 3)).truncated = false := by
  obtain ⟨-, hcut, -, hwhole⟩ := route_units overTriangle earlyCar
    (by decide : Ident.number 1 ≠ .number 3) (by decide) (by decide)
  have hqueue : ((overTriangle.network.steps overTriangle.policy earlyCar (.number 1)).foldl
      (Search.relax Quantity.zero) ((Search.start overTriangle.network.nodes.keys
        (.number 1)).settle (.number 1) [])).queue = [(1, .number 2), (3, .number 3)] := by
    decide +kernel
  have hroute : (overTriangle.route earlyCar (.units 1) (.number 1) (.number 3)).truncated = true ∧
      (overTriangle.route earlyCar (.units 1) (.number 1) (.number 3)).found = true ∧
      (overTriangle.route earlyCar (.units 1) (.number 1) (.number 3)).cost = some 3 := by
    unfold route
    rw [Network.route_eq_ofSearch _ _ _ (by decide) (by decide) (by decide),
      Search.run_round rfl (by decide) (by decide) (by decide),
      Search.run_exhausted hqueue (by decide +kernel) (by decide) (by decide)]
    decide +kernel
  obtain ⟨htruncated, hfound, hcost⟩ := hroute
  exact ⟨htruncated, hcost, (hcut 1 2 (by decide) htruncated hfound).1, hwhole 2 (by decide)⟩

end Router

end RoadRules
