import RoadRules.Proofs.Calendar.Cycle

set_option autoImplicit false

/-! # The runs of a selection

A selection is written as a list of runs of neighbouring members. No run goes past the end of the
cycle, so read as a range it holds just the members between its ends, and the runs together hold
what the selection holds (`Selection.selects_iff_exists_run`). -/

namespace RoadRules.Calendar

variable {ι : Type} [NamedCycle ι]

namespace NamedCycle

theorem place_lt (a : ι) : place a < (members : List ι).length :=
  List.idxOf_lt_length_of_mem (complete a)

theorem place_inj {a b : ι} : place a = place b ↔ a = b := List.idxOf_inj (complete a)

/-- The place of a member is the number of those that are listed before it. -/
theorem place_of_members {before after : List ι} {a : ι}
    (h : (members : List ι) = before ++ a :: after) : place a = before.length := by
  have hnodup : (before ++ a :: after).Nodup := h ▸ nodup
  have hnot : a ∉ before := fun ha =>
    (List.nodup_append.mp hnodup).2.2 a ha a List.mem_cons_self rfl
  unfold place
  rw [h, List.idxOf_append_of_notMem hnot, List.idxOf_cons_self, Nat.add_zero]

theorem stepsTo_of_le {a b : ι} (h : place a ≤ place b) : stepsTo a b = place b - place a := by
  have hb := place_lt b
  have hsteps : place b + (members : List ι).length - place a =
      place b - place a + (members : List ι).length := by omega
  unfold stepsTo
  rw [hsteps, Nat.add_mod_right, Nat.mod_eq_of_lt (by omega)]

theorem stepsTo_of_lt {a b : ι} (h : place b < place a) :
    stepsTo a b = place b + (members : List ι).length - place a := by
  have ha := place_lt a
  unfold stepsTo
  rw [Nat.mod_eq_of_lt (by omega)]

end NamedCycle

open NamedCycle

/-- Whether a member is between the ends of a run, in the order of the cycle. -/
def Within (x : ι) (r : ι × ι) : Prop := place r.1 ≤ place x ∧ place x ≤ place r.2

namespace Selection

/-- A range that does not go past the end of the cycle holds what is between its ends. -/
theorem selects_range_iff_within {a b : ι} (h : place a ≤ place b) (x : ι) :
    (range a b).selects x = true ↔ Within x (a, b) := by
  have hx := place_lt x
  have hb := place_lt b
  rw [selects_range, decide_eq_true_iff, stepsTo_of_le h]
  show _ ↔ place a ≤ place x ∧ place x ≤ place b
  rcases Nat.lt_or_ge (place x) (place a) with hlt | hge
  · rw [stepsTo_of_lt hlt]
    omega
  · rw [stepsTo_of_le hge]
    omega

theorem selects_range_self (a x : ι) : (range a a).selects x = (x == a) := by
  rw [Bool.eq_iff_iff, selects_range_iff_within (Nat.le_refl _), beq_iff_eq, ← place_inj]
  exact ⟨fun h => Nat.le_antisymm h.2 h.1, fun h => ⟨Nat.le_of_eq h.symm, Nat.le_of_eq h⟩⟩

section Runs

variable {selects : ι → Bool} {current : Option (ι × ι)} {before after : List ι} {i x : ι}

/-- A run with a further member at its end, or a new run if there is none. -/
def extended (current : Option (ι × ι)) (i : ι) : ι × ι := ((current.map Prod.fst).getD i, i)

omit [NamedCycle ι] in
theorem runsFrom_cons_of_selects (h : selects i = true) :
    runsFrom selects current (i :: after) = runsFrom selects (some (extended current i)) after := by
  cases current <;> simp [runsFrom, extended, h]

omit [NamedCycle ι] in
theorem runsFrom_cons_of_not (h : selects i = false) :
    runsFrom selects current (i :: after) = current.toList ++ runsFrom selects none after := by
  cases current <;> simp [runsFrom, h]

/-- Whether the run that is being read, if there is one, ends before the place that is read next. -/
def EndsBefore (n : Nat) (current : Option (ι × ι)) : Prop :=
  ∀ r ∈ current, place r.1 ≤ place r.2 ∧ place r.2 + 1 = n

theorem EndsBefore.extended (h : EndsBefore (place i) current) :
    EndsBefore (place i + 1) (some (extended current i)) := by
  rintro r ⟨⟩
  refine ⟨?_, rfl⟩
  cases current with
  | none => exact Nat.le_refl _
  | some r =>
      obtain ⟨hordered, hend⟩ := h r rfl
      show place r.1 ≤ place i
      omega

/-- A run that is extended holds one more member. -/
theorem within_extended_iff (h : EndsBefore (place i) current) :
    Within x (Selection.extended current i) ↔ (∃ r ∈ current, Within x r) ∨ x = i := by
  rw [← place_inj]
  cases current with
  | none =>
      show place i ≤ place x ∧ place x ≤ place i ↔ _
      simp only [Option.mem_def, reduceCtorEq, false_and, exists_false, false_or]
      omega
  | some r =>
      obtain ⟨hordered, hend⟩ := h r rfl
      show place r.1 ≤ place x ∧ place x ≤ place i ↔ _
      simp only [Option.mem_def, Option.some.injEq, exists_eq_left', Within]
      omega

/-- **What the runs hold** that are read from some place on: what the run holds that is being read,
and what is selected from there on. None of them ends before it begins. -/
theorem exists_runsFrom_iff (selects : ι → Bool) (hmembers : (members : List ι) = before ++ after)
    (hcurrent : EndsBefore before.length current) :
    (∀ r ∈ runsFrom selects current after, place r.1 ≤ place r.2) ∧
      ∀ x, (∃ r ∈ runsFrom selects current after, Within x r) ↔
        (∃ r ∈ current, Within x r) ∨ before.length ≤ place x ∧ selects x = true := by
  induction after generalizing before current with
  | nil =>
      have hnone : runsFrom selects current [] = current.toList := by simp [runsFrom]
      simp only [hnone, Option.mem_toList]
      refine ⟨fun r hr => (hcurrent r hr).1, fun x => (or_iff_left fun h => ?_).symm⟩
      have hx := place_lt x
      rw [hmembers, List.append_nil] at hx
      omega
  | cons i rest ih =>
      have hplace : place i = before.length := place_of_members hmembers
      have hmembers' : (members : List ι) = (before ++ [i]) ++ rest := by
        rw [hmembers, List.append_assoc, List.singleton_append]
      have hlength : (before ++ [i]).length = place i + 1 := by
        rw [List.length_append, List.length_singleton, hplace]
      -- The member at this place is read, and then those that come after it.
      have hread : ∀ x, before.length ≤ place x ∧ selects x = true ↔
          (x = i ∧ selects i = true) ∨ place i + 1 ≤ place x ∧ selects x = true := by
        intro x
        rw [← hplace, Nat.le_iff_lt_or_eq, or_and_right, or_comm, eq_comm, place_inj]
        exact or_congr_left (and_congr_right fun heq => heq ▸ Iff.rfl)
      rw [← hplace] at hcurrent
      by_cases hselects : selects i = true
      · have hrest := ih hmembers' (hlength ▸ hcurrent.extended)
        rw [hlength] at hrest
        rw [runsFrom_cons_of_selects hselects]
        refine ⟨hrest.1, fun x => ?_⟩
        rw [hrest.2, hread]
        simp only [Option.mem_def, Option.some.injEq, exists_eq_left', hselects, and_true,
          within_extended_iff hcurrent, or_assoc]
      · have hnone : EndsBefore (before ++ [i]).length (none : Option (ι × ι)) := nofun
        have hrest := ih hmembers' hnone
        rw [hlength] at hrest
        rw [runsFrom_cons_of_not (Bool.eq_false_iff.mpr hselects)]
        simp only [List.mem_append, Option.mem_toList, or_imp, forall_and, or_and_right,
          exists_or]
        refine ⟨⟨fun r hr => (hcurrent r hr).1, hrest.1⟩, fun x => or_congr_right ?_⟩
        rw [hrest.2, hread]
        simp [hselects]

end Runs

/-- **The runs of a selection hold what it holds**, each of them as a range. -/
theorem selects_iff_exists_run (s : Selection ι) (x : ι) :
    s.selects x = true ↔ ∃ r ∈ s.runs, (range r.1 r.2).selects x = true := by
  have hnone : EndsBefore ([] : List ι).length (none : Option (ι × ι)) := nofun
  obtain ⟨hordered, hwithin⟩ := exists_runsFrom_iff s.selects rfl hnone
  have hruns := hwithin x
  simp only [List.length_nil, Nat.zero_le, true_and, Option.mem_def, reduceCtorEq, false_and,
    exists_false, false_or] at hruns
  rw [← hruns]
  exact exists_congr fun r => and_congr_right fun hr =>
    (selects_range_iff_within (hordered r hr) x).symm

theorem isEmpty_empty : (empty : Selection ι).isEmpty = true := isEmpty_iff.mpr fun _ => rfl

/-- Only a selection without members has no runs. -/
theorem runs_eq_nil_iff {s : Selection ι} : s.runs = [] ↔ s.isEmpty = true := by
  rw [isEmpty_iff]
  constructor
  · intro hnil x
    rw [Bool.eq_false_iff, ne_eq, selects_iff_exists_run, hnil]
    exact fun ⟨r, hr, _⟩ => List.not_mem_nil hr
  · intro hnone
    refine List.eq_nil_iff_forall_not_mem.mpr fun r hr => ?_
    have hfirst : s.selects r.1 = true :=
      (selects_iff_exists_run s r.1).mpr ⟨r, hr, by
        rw [selects_range, decide_eq_true_iff, stepsTo_of_le (Nat.le_refl _), Nat.sub_self]
        exact Nat.zero_le _⟩
    rw [hnone] at hfirst
    cases hfirst

end Selection

end RoadRules.Calendar
