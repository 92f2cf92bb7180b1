import RoadRules.Network.Snapshot
import RoadRules.Proofs.Number.Lawful

set_option autoImplicit false

/-! # The nearest node

Whatever the order in which the index comes to the nodes, the node that is found for a point is one
than which no other is nearer (`Snapshot.nearest?_least`), and there is one unless there are no
nodes. The order only decides between nodes at the same distance. -/

namespace RoadRules

namespace Snapshot

/-! ## The foremost item -/

section Foremost

variable {β : Type} {before : β → β → Bool} {xs : List β} {x : β}

theorem foremost_eq_none_iff : foremost before xs = none ↔ xs = [] := by
  cases xs with
  | nil => exact ⟨fun _ => rfl, fun _ => rfl⟩
  | cons w rest =>
      rw [foremost]
      cases foremost before rest <;> simp

theorem mem_of_foremost (h : foremost before xs = some x) : x ∈ xs := by
  induction xs generalizing x with
  | nil => cases h
  | cons w rest ih =>
      rw [foremost] at h
      cases hrest : foremost before rest with
      | none =>
          rw [hrest] at h
          cases h
          exact List.mem_cons_self
      | some y =>
          rw [hrest] at h
          cases h
          split
          · exact List.mem_cons_of_mem _ (ih hrest)
          · exact List.mem_cons_self

/-- **The foremost item is least** in every order that the comparison refines. -/
theorem least_of_foremost (le : β → β → Prop) (htrans : ∀ {a b c}, le a b → le b c → le a c)
    (hbefore : ∀ {a b}, before a b = true → le a b)
    (hafter : ∀ {a b}, before a b = false → le b a) (h : foremost before xs = some x) :
    ∀ z ∈ xs, le x z := by
  have hself : ∀ a, le a a := fun a => by
    cases hbefore' : before a a with
    | true => exact hbefore hbefore'
    | false => exact hafter hbefore'
  induction xs generalizing x with
  | nil => cases h
  | cons w rest ih =>
      rw [foremost] at h
      cases hrest : foremost before rest with
      | none =>
          rw [hrest] at h
          cases h
          rw [foremost_eq_none_iff.mp hrest]
          intro z hz
          rw [List.mem_singleton.mp hz]
          exact hself _
      | some y =>
          rw [hrest] at h
          cases h
          intro z hz
          cases hbefore' : before y w with
          | true =>
              rcases List.mem_cons.mp hz with rfl | hz
              · exact hbefore hbefore'
              · exact ih hrest z hz
          | false =>
              rcases List.mem_cons.mp hz with rfl | hz
              · exact hself z
              · exact htrans (hafter hbefore') (ih hrest z hz)

end Foremost

/-! ## Nodes -/

variable {γ α : Type} [Multigraph γ α] [Geometry α] [LawfulQuantity α] {x y : α}

theorem le_of_isNearer {a b : Node α} (h : isNearer x y a b = true) :
    Geometry.distanceFrom x y a ≤ Geometry.distanceFrom x y b := by
  simp only [isNearer, Bool.or_eq_true, Bool.and_eq_true, Bool.not_eq_true', decide_eq_true_eq,
    decide_eq_false_iff_not] at h
  rcases h with hlt | ⟨hle, -⟩
  · exact LawfulQuantity.le_of_lt hlt
  · exact LawfulQuantity.le_of_not_lt hle

theorem le_of_not_isNearer {a b : Node α} (h : isNearer x y a b = false) :
    Geometry.distanceFrom x y b ≤ Geometry.distanceFrom x y a := by
  simp only [isNearer, Bool.or_eq_false_iff, decide_eq_false_iff_not] at h
  exact LawfulQuantity.le_of_not_lt h.1

variable {s : Snapshot γ α} {n : Node α}

/-- A lawful quantity is at most itself, so that every node has a place. -/
theorem nearest?_eq (s : Snapshot γ α) (x y : α) :
    s.nearest? x y = foremost (isNearer x y) s.nodes.values := by
  have hplaced : s.nodes.values.filter (fun n => decide (n.x ≤ n.x)) = s.nodes.values :=
    List.filter_eq_self.mpr fun n _ => decide_eq_true (LawfulQuantity.le_refl n.x)
  rw [nearest?, hplaced]

theorem nearest?_eq_none_iff : s.nearest? x y = none ↔ s.nodes.values = [] := by
  rw [nearest?_eq, foremost_eq_none_iff]

/-- **The node that is found** is a node of the network, and none is nearer to the point. -/
theorem nearest?_least (h : s.nearest? x y = some n) :
    n ∈ s.nodes.values ∧
      ∀ n' ∈ s.nodes.values, Geometry.distanceFrom x y n ≤ Geometry.distanceFrom x y n' := by
  rw [nearest?_eq] at h
  refine ⟨mem_of_foremost h, ?_⟩
  exact least_of_foremost
    (fun a b => Geometry.distanceFrom x y a ≤ Geometry.distanceFrom x y b)
    LawfulQuantity.le_trans le_of_isNearer le_of_not_isNearer h

end Snapshot

end RoadRules
