import Mathlib.Data.List.Basic
import RoadRules.Calendar.NamedCycle

set_option autoImplicit false

/-! # Ranges around a cycle

A range from one member of a cycle to another is counted in steps: going forward from the first
member, it holds every member that is reached no later than the last. A range that ends before it
begins in the order of the cycle so goes on past the end of the cycle. -/

namespace RoadRules.Calendar

variable {ι : Type} [NamedCycle ι]

namespace NamedCycle

/-- The place of a member in the order of the cycle, from zero on. -/
def place (a : ι) : Nat := (members : List ι).idxOf a

/-- The number of steps that lead from one member forward to another. -/
def stepsTo (a b : ι) : Nat :=
  (place b + (members : List ι).length - place a) % (members : List ι).length

/-- The part of a list up to an item holds what comes no later than the item. -/
theorem mem_takeWhile_concat {l : List ι} {x b : ι} (hx : x ∈ l) :
    x ∈ l.takeWhile (· != b) ++ [b] ↔ l.idxOf x ≤ l.idxOf b := by
  induction l with
  | nil => cases hx
  | cons a rest ih =>
      by_cases hab : a = b
      · subst hab
        by_cases hxa : x = a
        · simp [hxa]
        · have hne : ¬a = x := fun h => hxa h.symm
          simp [hne, hxa]
      · by_cases hxa : x = a
        · subst hxa
          simp [hab]
        · have hrest : x ∈ rest := (List.mem_cons.mp hx).resolve_left hxa
          have hne : ¬a = x := fun h => hxa h.symm
          simpa [List.idxOf_cons, hab, hne, hxa] using ih hrest

/-- The members from one on are reached in as many steps as their place among them says. -/
theorem idxOf_startingAt (a x : ι) : (startingAt a).idxOf x = stepsTo a x := by
  obtain ⟨before, after, hmembers, hbefore⟩ := List.eq_append_cons_of_mem (complete a)
  have hall : ∀ b ∈ before, (b != a) = true := fun b hb =>
    bne_iff_ne.mpr fun h => hbefore (h ▸ hb)
  have hstarting : startingAt a = (a :: after) ++ before := by
    unfold startingAt
    rw [hmembers, List.dropWhile_append_of_pos hall, List.takeWhile_append_of_pos hall]
    simp
  have hplace : place a = before.length := by
    unfold place
    rw [hmembers, List.idxOf_append_of_notMem hbefore]
    simp
  have hlength : (members : List ι).length = before.length + (a :: after).length := by
    rw [hmembers, List.length_append]
  have hmem : x ∈ before ++ a :: after := hmembers ▸ complete x
  have hnodup : (before ++ a :: after).Nodup := hmembers ▸ nodup
  have hapart := (List.nodup_append.mp hnodup).2.2
  unfold stepsTo
  rw [hstarting, hplace, hlength]
  by_cases hx : x ∈ a :: after
  · have hnot : x ∉ before := fun h => hapart x h x hx rfl
    have hlt : (a :: after).idxOf x < (a :: after).length := List.idxOf_lt_length_of_mem hx
    have hx' : place x = before.length + (a :: after).idxOf x := by
      unfold place
      rw [hmembers, List.idxOf_append_of_notMem hnot, Nat.add_comm]
    have hsteps : before.length + (a :: after).idxOf x + (before.length + (a :: after).length) -
        before.length = (a :: after).idxOf x + (before.length + (a :: after).length) := by
      omega
    rw [List.idxOf_append_of_mem hx, hx', hsteps, Nat.add_mod_right, Nat.mod_eq_of_lt (by omega)]
  · have hx' : x ∈ before := (List.mem_append.mp hmem).resolve_right hx
    have hlt : before.idxOf x < before.length := List.idxOf_lt_length_of_mem hx'
    have hplace' : place x = before.idxOf x := by
      unfold place
      rw [hmembers, List.idxOf_append_of_mem hx']
    rw [List.idxOf_append_of_notMem hx, hplace', Nat.mod_eq_of_lt (by omega)]
    omega

end NamedCycle

/-- **A range holds the members that are reached no later than its end.** -/
theorem Selection.selects_range (a b x : ι) :
    (Selection.range a b).selects x =
      decide (NamedCycle.stepsTo a x ≤ NamedCycle.stepsTo a b) := by
  have hmem : x ∈ NamedCycle.startingAt a := by
    unfold NamedCycle.startingAt
    rw [List.mem_append, or_comm, ← List.mem_append, List.takeWhile_append_dropWhile]
    exact NamedCycle.complete x
  rw [Bool.eq_iff_iff, decide_eq_true_iff, ← NamedCycle.idxOf_startingAt,
    ← NamedCycle.idxOf_startingAt, ← NamedCycle.mem_takeWhile_concat hmem]
  exact List.contains_iff_mem

end RoadRules.Calendar
