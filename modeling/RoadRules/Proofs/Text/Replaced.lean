import RoadRules.Text.Replace

set_option autoImplicit false

/-! # Replacing parts of a text

`Replaced` says without an algorithm that two texts have the same gaps between a part and what takes
its place. A text with every occurrence of a part replaced is such a text (`replaced_replaceAll`),
and it is shorter if there was an occurrence and what takes its place is shorter
(`length_replaceAll_lt`). -/

namespace RoadRules.Text

/-- **Texts that differ in occurrences of a part**: the second is the first with some of them
replaced. -/
inductive Replaced (part replacement : Text) : Text → Text → Prop
  | nil : Replaced part replacement [] []
  | char {c : CodePoint} {s t : Text} :
      Replaced part replacement s t → Replaced part replacement (c :: s) (c :: t)
  | part {s t : Text} :
      Replaced part replacement s t → Replaced part replacement (part ++ s) (replacement ++ t)

variable {part replacement s t : Text} {c : CodePoint}

namespace Replaced

theorem length_le (h : Replaced part replacement s t) (hle : replacement.length ≤ part.length) :
    t.length ≤ s.length := by
  induction h with
  | nil => exact Nat.le_refl _
  | char _ ih => exact Nat.succ_le_succ ih
  | part _ ih =>
      rw [List.length_append, List.length_append]
      exact Nat.add_le_add hle ih

/-- Only the replacement brings new characters. -/
theorem mem_or_mem (h : Replaced part replacement s t) (hc : c ∈ t) : c ∈ s ∨ c ∈ replacement := by
  induction h with
  | nil => cases hc
  | char _ ih =>
      rcases List.mem_cons.mp hc with rfl | hc
      · exact Or.inl List.mem_cons_self
      · exact (ih hc).imp_left (List.mem_cons_of_mem _)
  | part _ ih =>
      rcases List.mem_append.mp hc with hc | hc
      · exact Or.inr hc
      · exact (ih hc).imp_left (List.mem_append_right _)

/-- A character that the part lacks stays. -/
theorem mem_of_not_mem_part (h : Replaced part replacement s t) (hpart : c ∉ part) (hc : c ∈ s) :
    c ∈ t := by
  induction h with
  | nil => cases hc
  | char _ ih =>
      rcases List.mem_cons.mp hc with rfl | hc
      · exact List.mem_cons_self
      · exact List.mem_cons_of_mem _ (ih hc)
  | part _ ih =>
      rcases List.mem_append.mp hc with hc | hc
      · exact absurd hc hpart
      · exact List.mem_append_right _ (ih hc)

end Replaced

/-! ## Every occurrence -/

/-- What is skipped is left out. -/
theorem replaceFrom_eq_replaceAll_drop (part replacement : Text) (skip : Nat) (s : Text) :
    replaceFrom part replacement skip s = replaceAll part replacement (s.drop skip) := by
  induction s generalizing skip with
  | nil => cases skip <;> rfl
  | cons d rest ih =>
      cases skip with
      | zero => rfl
      | succ skip => exact ih skip

theorem replaceAll_append (hne : part ≠ []) :
    replaceAll part replacement (part ++ s) = replacement ++ replaceAll part replacement s := by
  obtain ⟨c, rest, rfl⟩ := List.exists_cons_of_ne_nil hne
  have hstart : (c :: rest).isPrefixOf (c :: (rest ++ s)) = true :=
    List.isPrefixOf_iff_prefix.mpr (List.prefix_append (c :: rest) s)
  show replaceFrom (c :: rest) replacement 0 (c :: (rest ++ s)) = _
  rw [replaceFrom, if_pos hstart, replaceFrom_eq_replaceAll_drop]
  congr 2
  exact List.drop_left

theorem replaceAll_cons (h : ¬ part.isPrefixOf (c :: s) = true) :
    replaceAll part replacement (c :: s) = c :: replaceAll part replacement s := by
  unfold replaceAll
  rw [replaceFrom, if_neg h]

/-- **Replacing every occurrence** of a part leaves the gaps between them. -/
theorem replaced_replaceAll (hne : part ≠ []) (replacement s : Text) :
    Replaced part replacement s (replaceAll part replacement s) := by
  -- An occurrence is taken at once, so what is left may be shorter by more than one character.
  induction hn : s.length using Nat.strongRecOn generalizing s with
  | ind n ih =>
      cases s with
      | nil => exact .nil
      | cons c rest =>
          by_cases hstart : part.isPrefixOf (c :: rest) = true
          · obtain ⟨tail, htail⟩ := List.isPrefixOf_iff_prefix.mp hstart
            have hlength := congrArg List.length htail
            have hpos := List.length_pos_iff.mpr hne
            rw [List.length_append, hn] at hlength
            rw [← htail, replaceAll_append hne]
            exact .part (ih tail.length (by omega) tail rfl)
          · rw [replaceAll_cons hstart]
            exact .char (ih rest.length (hn ▸ Nat.lt_succ_self _) rest rfl)

/-- **A text becomes shorter** when an occurrence is replaced by something shorter. -/
theorem length_replaceAll_lt (hlt : replacement.length < part.length)
    (h : occursIn part s = true) : (replaceAll part replacement s).length < s.length := by
  have hne : part ≠ [] := List.length_pos_iff.mp (Nat.zero_lt_of_lt hlt)
  induction s with
  | nil => exact absurd (List.isEmpty_iff.mp h) hne
  | cons c rest ih =>
      by_cases hstart : part.isPrefixOf (c :: rest) = true
      · obtain ⟨tail, htail⟩ := List.isPrefixOf_iff_prefix.mp hstart
        have htail_le := (replaced_replaceAll hne replacement tail).length_le (Nat.le_of_lt hlt)
        rw [← htail, replaceAll_append hne, List.length_append, List.length_append]
        exact Nat.add_lt_add_of_lt_of_le hlt htail_le
      · rw [occursIn, Bool.or_eq_true] at h
        rw [replaceAll_cons hstart]
        exact Nat.succ_lt_succ (ih (h.resolve_left hstart))

end RoadRules.Text
