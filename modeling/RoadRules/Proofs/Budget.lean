import RoadRules.Proofs.Network.Reference
import RoadRules.Session

set_option autoImplicit false

/-! # Scans within a budget

A scan works on the items of a list one by one and asks its budget before each of them. The survey
of a map, its summary and the search for affected edges are scans. With a budget of some number of
units a scan is the whole scan of as many items, the first ones of the list, and it is cut off just
when items are left; a negative number allows as little as zero (`Budget.scans_units`). -/

namespace RoadRules

namespace Budget

section Scan

variable {μ : Type → Type} [Monad μ] [LawfulMonad μ] {σ β : Type}

/-- A scan of which at most as much is spent as there is does the items up to the last unit. -/
theorem scan_units_from (work : σ → β → μ σ) {k : Int} {spent : Nat} (hspent : spent ≤ k.toNat)
    (s : σ) (xs : List β) :
    (units k).scan work spent s xs =
      (fun p => (p.1, decide (k.toNat < spent + xs.length))) <$>
        unlimited.scan work spent s (xs.take (k.toNat - spent)) := by
  induction xs generalizing spent s with
  | nil =>
      have hdone : ¬ k.toNat < spent := by omega
      simp [scan, hdone]
  | cons x rest ih =>
      by_cases hallows : (units k).allows spent = true
      · -- One unit goes to the first item, and the others to the rest.
        have hlt : (spent : Int) < k := allows_units.mp hallows
        have htake : k.toNat - spent = k.toNat - (spent + 1) + 1 := by omega
        have hlength : spent + (x :: rest).length = spent + 1 + rest.length := by
          rw [List.length_cons]
          omega
        have hmore : unlimited.allows spent = true := rfl
        rw [htake, List.take_succ_cons, hlength]
        simp only [scan, if_pos hallows, if_pos hmore, map_bind]
        congr 1
        funext s'
        exact ih (by omega) s'
      · have hend : k.toNat = spent := by
          rw [allows_units] at hallows
          omega
        have hleft : k.toNat < spent + (x :: rest).length := by
          rw [List.length_cons]
          omega
        simp [scan, hallows, hend]

/-- **A scan with some units** is the whole scan of as many items. -/
theorem scan_units (k : Int) (work : σ → β → μ σ) (s : σ) (xs : List β) :
    (units k).scan work 0 s xs =
      (fun p => (p.1, decide (k.toNat < xs.length))) <$>
        unlimited.scan work 0 s (xs.take k.toNat) := by
  have hall := scan_units_from work (Nat.zero_le k.toNat) s xs
  rwa [Nat.zero_add, Nat.sub_zero] at hall

end Scan

end Budget

/-! ## Edges and their numbers -/

section Edges

variable {α : Type}

/-- The first of numbered edges are those with the least numbers. -/
theorem Edge.take_number (first n : Nat) (ls : List (Link α)) :
    (number first ls).take n = (number first ls).filter fun e => decide (e.id < first + n) := by
  induction ls generalizing first n with
  | nil => simp [number]
  | cons l rest ih =>
      cases n with
      | zero =>
          have hnone : ∀ e ∈ number first (l :: rest), ¬ decide (e.id < first + 0) = true := by
            intro e he
            have hid : e.id ∈ (number first (l :: rest)).map Edge.id := List.mem_map_of_mem he
            rw [map_id_number, List.mem_range'_1] at hid
            simp only [decide_eq_true_eq]
            omega
          rw [List.take_zero, List.filter_eq_nil_iff.mpr hnone]
      | succ n =>
          have hrest := ih (first + 1) n
          have hsum : first + 1 + n = first + (n + 1) := by omega
          rw [hsum] at hrest
          have hfirst : decide (first < first + (n + 1)) = true := by
            rw [decide_eq_true_eq]
            omega
          simp [number, hrest]

/-- With some units the affected edges of a network are those of them with the least numbers. -/
theorem Network.affectedEdges_units [Quantity α] (g : Network α) (t : Traveller α) (k : Int) :
    g.affectedEdges t (.units k) =
      (g.affectedEdges t .unlimited).filter fun e => decide (e.id < k.toNat) := by
  have htake := Edge.take_number 0 k.toNat (g.edges.map Edge.toLink)
  rw [Nat.zero_add, ← Edge.eq_number g.inStep.number] at htake
  calc
    g.affectedEdges t (.units k)
      = (Budget.unlimited.scan (addAffected t) 0 [] (g.edges.take k.toNat)).1 := by
        rw [affectedEdges, Budget.scan_units]
        rfl
    _ = (g.edges.take k.toNat).filter
          fun e => !(t.restrictionsInForce e.restrictions).isEmpty := by
        rw [Budget.scan_eq, foldlM_addAffected]
        exact congrArg (List.filter _) (congrArg Prod.fst (Budget.cut_unlimited _))
    _ = (g.affectedEdges t .unlimited).filter fun e => decide (e.id < k.toNat) := by
        rw [htake, affectedEdges_unlimited, List.filter_filter, List.filter_filter]
        exact List.filter_congr fun e _ => Bool.and_comm _ _

end Edges

/-- **A scan within a budget is the whole scan of the first items.** With a budget of `k` units,
none if `k` is negative, a survey has the restrictions and issues of the whole survey of the first
`k` ways, or it fails as that does, and a summary has its counts; both are cut off just when there
are more ways. The affected edges of a router, whatever has been done with it, are those of all its
affected edges whose number is less than `k`, in the order of their numbers. -/
theorem Budget.scans_units {α : Type} [Geometry α] (m : TagMapper) (policy : Policy α)
    (os : List (Operation α)) (k : Int) :
    (∀ (ways : List (Way α)) (keys : List Text),
      RestrictionIndex.ofWays ways keys (.units k) =
        (RestrictionIndex.ofWays (ways.take k.toNat) keys .unlimited).map fun ix =>
          { ix with truncated := decide (k.toNat < ways.length) }) ∧
    (∀ ways : List (Way α),
      Summary.ofWays ways (.units k) =
        (Summary.ofWays (ways.take k.toNat) .unlimited).map fun s =>
          { s with truncated := decide (k.toNat < ways.length) }) ∧
    ∀ t : Traveller α,
      let g := ((Router.ofMapper m policy).performAll os).1.network
      g.affectedEdges t (.units k) =
          (g.affectedEdges t .unlimited).filter (fun e => decide (e.id < k.toNat)) ∧
        Edge.Ascending (g.affectedEdges t (.units k)) := by
  refine ⟨fun ways keys => ?_, fun ways => ?_, fun t => ?_⟩
  · rw [RestrictionIndex.ofWays, RestrictionIndex.ofWays, scan_units]
    cases unlimited.scan (RestrictionIndex.addWay keys) 0 RestrictionIndex.empty
      (ways.take k.toNat) <;> rfl
  · rw [Summary.ofWays, Summary.ofWays, scan_units]
    cases unlimited.scan Summary.addWay 0 Summary.empty (ways.take k.toNat) <;> rfl
  · intro g
    have hunits := g.affectedEdges_units t k
    refine ⟨hunits, ?_⟩
    rw [hunits]
    exact (g.ascending_affectedEdges t).filter _

end RoadRules
