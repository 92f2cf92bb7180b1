import Mathlib.Data.List.Forall2
import RoadRules.Fallible

set_option autoImplicit false

/-! # The results of operations that may fail

An operation that is done for each item of a list has a list of results, which are related to the
items one by one. -/

namespace RoadRules

variable {ε β γ : Type} {f : β → Except ε γ} {xs : List β} {ys : List γ}

theorem exists_forall₂ {R : β → γ → Prop} (h : ∀ x ∈ xs, ∃ y, R x y) :
    ∃ ys, List.Forall₂ R xs ys := by
  induction xs with
  | nil => exact ⟨[], .nil⟩
  | cons x rest ih =>
      obtain ⟨⟨y, hy⟩, hrest⟩ := List.forall_mem_cons.mp h
      obtain ⟨ys, hys⟩ := ih hrest
      exact ⟨y :: ys, .cons hy hys⟩

theorem exists_of_forall₂ {R : β → γ → Prop} (h : List.Forall₂ R xs ys) :
    ∀ x ∈ xs, ∃ y ∈ ys, R x y := by
  induction h with
  | nil => simp
  | cons hxy _ ih =>
      refine List.forall_mem_cons.mpr ⟨⟨_, List.mem_cons_self, hxy⟩, fun x hx => ?_⟩
      obtain ⟨y, hy, hxy⟩ := ih x hx
      exact ⟨y, List.mem_cons_of_mem _ hy, hxy⟩

/-- Items that are related are related in another way too if the items of the list tell. -/
theorem forall₂_of_mem {R S : β → γ → Prop} (h : List.Forall₂ R xs ys)
    (hRS : ∀ x ∈ xs, ∀ y, R x y → S x y) : List.Forall₂ S xs ys := by
  induction h with
  | nil => exact .nil
  | cons hxy _ ih =>
      obtain ⟨hx, hrest⟩ := List.forall_mem_cons.mp hRS
      exact .cons (hx _ hxy) (ih hrest)

theorem filterMap_of_forall₂ {δ : Type} {R : β → γ → Prop} {g : β → Option δ} {g' : γ → Option δ}
    (h : List.Forall₂ R xs ys) (hsame : ∀ x y, R x y → g x = g' y) :
    xs.filterMap g = ys.filterMap g' := by
  induction h with
  | nil => rfl
  | cons hxy _ ih => rw [List.filterMap_cons, List.filterMap_cons, hsame _ _ hxy, ih]

theorem flatMap_of_forall₂ {δ : Type} {R : β → γ → Prop} {g : β → List δ} {g' : γ → List δ}
    (h : List.Forall₂ R xs ys) (hsame : ∀ x y, R x y → g x = g' y) :
    xs.flatMap g = ys.flatMap g' := by
  induction h with
  | nil => rfl
  | cons hxy _ ih => rw [List.flatMap_cons, List.flatMap_cons, hsame _ _ hxy, ih]

theorem mem_iff_of_forall₂ (h : List.Forall₂ (fun x y => f x = .ok y) xs ys) {y : γ} :
    y ∈ ys ↔ ∃ x ∈ xs, f x = .ok y := by
  constructor
  · exact fun hy => exists_of_forall₂ h.flip y hy
  · rintro ⟨x, hx, hxy⟩
    obtain ⟨y', hy', hxy'⟩ := exists_of_forall₂ h x hx
    rw [hxy] at hxy'
    cases hxy'
    exact hy'

/-- An operation is done for each item just when it is done for the items one by one. -/
theorem mapM_eq_ok_iff : xs.mapM f = .ok ys ↔ List.Forall₂ (fun x y => f x = .ok y) xs ys := by
  induction xs generalizing ys with
  | nil =>
      rw [List.mapM_nil, List.forall₂_nil_left_iff]
      exact ⟨fun h => (Except.ok.inj h).symm, fun h => congrArg Except.ok h.symm⟩
  | cons x rest ih =>
      rw [mapM_cons_eq_ok_iff, List.forall₂_cons_left_iff]
      refine exists_congr fun y => exists_congr fun zs => and_congr_right fun _ => ?_
      rw [ih, eq_comm]

/-- An operation that can be done for each item is done for all. -/
theorem mapM_eq_ok_map {g : β → γ} (h : ∀ x ∈ xs, f x = .ok (g x)) :
    xs.mapM f = .ok (xs.map g) := by
  rw [mapM_eq_ok_iff, List.forall₂_map_right_iff, List.forall₂_same]
  exact h

/-- An operation can be done for all items just when it can be done for each. -/
theorem exists_mapM_eq_ok_iff : (∃ ys, xs.mapM f = .ok ys) ↔ ∀ x ∈ xs, ∃ y, f x = .ok y := by
  simp only [mapM_eq_ok_iff]
  constructor
  · rintro ⟨ys, h⟩ x hx
    obtain ⟨y, -, hy⟩ := exists_of_forall₂ h x hx
    exact ⟨y, hy⟩
  · exact exists_forall₂

/-- An operation that cannot be done for all items cannot be done for one of them. -/
theorem exists_of_mapM_eq_error {e : ε} (h : xs.mapM f = .error e) : ∃ x ∈ xs, f x = .error e := by
  induction xs with
  | nil => cases h
  | cons x rest ih =>
      rw [List.mapM_cons] at h
      rcases bind_eq_error.mp h with hx | ⟨y, -, hrest⟩
      · exact ⟨x, List.mem_cons_self, hx⟩
      · rcases bind_eq_error.mp hrest with hrest | ⟨ys, -, hdone⟩
        · obtain ⟨z, hz, hfz⟩ := ih hrest
          exact ⟨z, List.mem_cons_of_mem _ hz, hfz⟩
        · cases hdone

end RoadRules
