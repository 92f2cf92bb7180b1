import RoadRules.Proofs.Results
import RoadRules.Survey.Summary
import RoadRules.Travel.Route

set_option autoImplicit false

/-! # What a budget cuts off

A scan asks its budget before each item. Which items it comes to depends on their number alone and
not on the work, so that a scan is the work on the items that its budget cuts off for it
(`Budget.scan_eq`). The survey of a map, its summary and the search for affected edges are put in
this form here. -/

namespace RoadRules

namespace Budget

/-- The items of a list that may be worked on, one unit each, when `spent` units are spent, and
whether any had to be left out. -/
def cutFrom {β : Type} (b : Budget) (spent : Nat) : List β → List β × Bool
  | [] => ([], false)
  | x :: rest =>
    if b.allows spent then
      let (taken, truncated) := b.cutFrom (spent + 1) rest
      (x :: taken, truncated)
    else ([], true)

/-- The items of a list that may be worked on, one unit each, and whether any had to be left
out. -/
def cut {β : Type} (b : Budget) (l : List β) : List β × Bool := b.cutFrom 0 l

@[simp] theorem cut_unlimited {β : Type} (l : List β) : unlimited.cut l = (l, false) := by
  have h : ∀ n, unlimited.cutFrom n l = (l, false) := by
    induction l with
    | nil => exact fun _ => rfl
    | cons x rest ih =>
        intro n
        have step := ih (n + 1)
        simp only [unlimited] at step
        simp [cutFrom, allows, unlimited, step]
  exact h 0

/-- **A scan works on the items that its budget cuts off for it**, and on no others. -/
theorem scan_eq {μ : Type → Type} [Monad μ] [LawfulMonad μ] {σ β : Type} (b : Budget)
    (work : σ → β → μ σ) (spent : Nat) (s : σ) (xs : List β) :
    b.scan work spent s xs =
      (fun s' => (s', (b.cutFrom spent xs).2)) <$> (b.cutFrom spent xs).1.foldlM work s := by
  induction xs generalizing spent s with
  | nil => simp [scan, cutFrom]
  | cons x rest ih =>
      by_cases hallows : b.allows spent = true
      · simp [scan, cutFrom, hallows, ih]
      · simp [scan, cutFrom, hallows]

end Budget

variable {α : Type} [Quantity α]

namespace RestrictionIndex

/-- The index with the ways of a list added one after the other. -/
def addWays (keys : List Text) (ix : RestrictionIndex α) (ways : List (Way α)) :
    Except Fault (RestrictionIndex α) :=
  ways.foldlM (addWay keys) ix

/-- A survey adds the ways that its budget cuts off. -/
theorem ofWays_eq_cut (ways : List (Way α)) (keys : List Text) (b : Budget) :
    ofWays ways keys b =
      (addWays keys empty (b.cut ways).1).map fun ix =>
        { ix with truncated := (b.cut ways).2 } := by
  unfold ofWays
  rw [b.scan_eq]
  show _ = (((b.cutFrom 0 ways).1.foldlM (addWay keys) empty).map _)
  cases (b.cutFrom 0 ways).1.foldlM (addWay keys) empty <;> rfl

end RestrictionIndex

namespace Summary

/-- The summary with the ways of a list added one after the other. -/
def addWays (s : Summary) (ways : List (Way α)) : Except Fault Summary := ways.foldlM addWay s

/-- A summary counts the ways that its budget cuts off. -/
theorem ofWays_eq_cut (ways : List (Way α)) (b : Budget) :
    ofWays ways b =
      (empty.addWays (b.cut ways).1).map fun s => { s with truncated := (b.cut ways).2 } := by
  unfold ofWays
  rw [b.scan_eq]
  show _ = (((b.cutFrom 0 ways).1.foldlM addWay empty).map _)
  cases (b.cutFrom 0 ways).1.foldlM addWay empty <;> rfl

end Summary

namespace Network

theorem foldlM_addAffected (t : Traveller α) (es found : List (Edge α)) :
    es.foldlM (addAffected t) found =
      found ++ es.filter fun e => !(t.restrictionsInForce e.restrictions).isEmpty := by
  induction es generalizing found with
  | nil => exact (List.append_nil found).symm
  | cons e rest ih =>
      by_cases haffected : (t.restrictionsInForce e.restrictions).isEmpty = true
      · have hstep : addAffected t found e = found := if_pos haffected
        have hrest := ih found
        rw [List.filter_cons_of_neg (by simp [haffected]), ← hrest, List.foldlM_cons, hstep]
        rfl
      · have hstep : addAffected t found e = found ++ [e] := if_neg haffected
        have hrest := ih (found ++ [e])
        rw [List.append_assoc, List.singleton_append] at hrest
        rw [List.filter_cons_of_pos (by simp [haffected]), ← hrest, List.foldlM_cons, hstep]
        rfl

/-- The affected edges are found among those that the budget cuts off. -/
theorem affectedEdges_eq_cut (g : Network α) (t : Traveller α) (b : Budget) :
    g.affectedEdges t b =
      (b.cut g.edges).1.filter fun e => !(t.restrictionsInForce e.restrictions).isEmpty := by
  unfold affectedEdges
  rw [b.scan_eq, foldlM_addAffected, List.nil_append]
  rfl

theorem affectedEdges_unlimited (g : Network α) (t : Traveller α) :
    g.affectedEdges t .unlimited =
      g.edges.filter fun e => !(t.restrictionsInForce e.restrictions).isEmpty := by
  rw [affectedEdges_eq_cut, Budget.cut_unlimited]

end Network

end RoadRules
