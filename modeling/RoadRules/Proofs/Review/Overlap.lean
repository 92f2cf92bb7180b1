import RoadRules.Proofs.Condition.WholeMinutes
import RoadRules.Proofs.Number.Rational
import RoadRules.Proofs.Review.Tags

set_option autoImplicit false

/-! # The finding about overlapping windows

A review compares the windows of a tag minute by minute. Windows that are read from a tag are whole
minutes, so the finding is exact: it is reported for a tag that is read just when two of its windows
are active together at some point, and never twice for one tag (`Review.findings_overlap_iff`). -/

namespace RoadRules

open Text Condition Calendar

/-! ## Causes -/

/-- A finding about a value is about no windows. -/
theorem Cause.isOverlap_of_isAboutValue {c : Cause} (h : c.isAboutValue = true) :
    c.isOverlap = false := by
  cases c <;> first | rfl | contradiction

theorem syntaxCode_ne_overlappingConditions (r : Refusal) :
    syntaxCode r ≠ .overlappingConditions := by
  unfold syntaxCode
  split <;> nofun

/-- Overlapping windows have a code of their own. -/
theorem Finding.code_eq_overlappingConditions_iff {f : Finding} :
    f.code = .overlappingConditions ↔ f.cause.isOverlap = true := by
  unfold Finding.code
  cases f.cause with
  | refused r value => exact ⟨fun h => absurd h (syntaxCode_ne_overlappingConditions r), nofun⟩
  | overlap v w => exact ⟨fun _ => rfl, fun _ => rfl⟩
  | unusualAccess value => exact ⟨nofun, nofun⟩
  | invalidOneway value => exact ⟨nofun, nofun⟩
  | implausibleSpeed value => exact ⟨nofun, nofun⟩
  | milesPerHour value => exact ⟨nofun, nofun⟩
  | conflict base value keys => exact ⟨nofun, nofun⟩

namespace Review

theorem length_overlapCauses_le (ws : List TimeWindow) : (overlapCauses ws).length ≤ 1 := by
  unfold overlapCauses
  cases firstOverlap ws <;> simp

/-- **There is a cause about windows** just when some window overlaps a later one. -/
theorem overlapCauses_ne_nil_iff {ws : List TimeWindow} :
    overlapCauses ws ≠ [] ↔ ∃ (i j : Nat) (v w : TimeWindow), i < j ∧ ws[i]? = some v ∧
      ws[j]? = some w ∧ v.overlaps w = true := by
  have hnone : overlapCauses ws = [] ↔ firstOverlap ws = none := by
    unfold overlapCauses
    cases firstOverlap ws <;> simp
  rw [ne_eq, hnone, firstOverlap_eq_none_iff, List.pairwise_iff_getElem]
  constructor
  · intro h
    push Not at h
    obtain ⟨i, j, hi, hj, hij, hoverlaps⟩ := h
    exact ⟨i, j, ws[i], ws[j], hij, List.getElem?_eq_getElem hi, List.getElem?_eq_getElem hj,
      by simpa using hoverlaps⟩
  · rintro ⟨i, j, v, w, hij, hv, hw, hoverlaps⟩ hall
    obtain ⟨hi, rfl⟩ := List.getElem?_eq_some_iff.mp hv
    obtain ⟨hj, rfl⟩ := List.getElem?_eq_some_iff.mp hw
    rw [hall i j hi hj hij] at hoverlaps
    cases hoverlaps

/-! ## One tag -/

section Tags

variable {α : Type} [Quantity α] {key : Text} {value : Option Text} {cs : List Cause}

/-- The windows that a tag states; a tag that is not read states none. -/
def statedWindows (α : Type) [Quantity α] (key : Text) (value : Option Text) : List TimeWindow :=
  match (Restriction.read key value : Except Fault (Restriction α)) with
  | .ok r => r.windows
  | .error _ => []

omit [Quantity α] in
theorem filter_restrictionCauses {r : Restriction α} (h : restrictionCauses r = .ok cs) :
    cs.filter Cause.isOverlap = overlapCauses r.windows := by
  obtain ⟨others, hothers, heq⟩ := bind_eq_ok.mp h
  cases heq
  have hnone : others.filter Cause.isOverlap = [] := by
    rw [List.filter_eq_nil_iff]
    exact fun c hc => Bool.eq_false_iff.mp
      (Cause.isOverlap_of_isAboutValue (isAboutValue_of_mem_valueCauses hothers c hc))
  rw [List.filter_append, hnone, List.nil_append,
    List.filter_eq_self.mpr isOverlap_of_mem_overlapCauses]

/-- **The causes about windows that a tag has** are those of the windows that it states. -/
theorem filter_tagCauses (h : tagCauses α key value = .ok cs) :
    cs.filter Cause.isOverlap = overlapCauses (statedWindows α key value) := by
  unfold statedWindows
  rcases tagCauses_eq_ok h with ⟨hblank, rfl⟩ | ⟨r, hread, hr⟩ | ⟨k, cause, hread, rfl⟩
  · rw [read_of_allBlank hblank]
    rfl
  · rw [hread]
    exact filter_restrictionCauses hr
  · rw [hread]
    rfl

end Tags

/-! ## All tags -/

section Findings

variable {α : Type} [Quantity α] {entries : List (Text × Option Text)} {fs : List Finding}
  {key : Text}

/-- The findings about overlapping windows that are reported for a key. -/
def overlapsAt (key : Text) (fs : List Finding) : List Finding :=
  fs.filter fun f => f.key == key && f.cause.isOverlap

/-- The findings of one key that are about overlapping windows. -/
theorem overlapsAt_eq (key : Text) (fs : List Finding) :
    overlapsAt key fs =
      (fs.filter fun f => f.key == key).filter fun f => f.cause.isOverlap := by
  unfold overlapsAt
  simp only [List.filter_filter, Bool.and_comm]

/-- **The findings about windows of a tag** are about the windows that it states. -/
theorem overlapsAt_tagFindings {value : Option Text} (h : tagFindings α entries = .ok fs)
    (hnodup : (entries.map Prod.fst).Nodup) (hmem : (key, value) ∈ entries)
    (hconditional : isConditionalKey key = true) :
    overlapsAt key fs = (overlapCauses (statedWindows α key value)).map (Finding.mk key) := by
  obtain ⟨cs, hcs, heq⟩ := map_eq_ok.mp ((findings_in_order h hnodup).1 _ hmem)
  rw [causesOf, if_pos hconditional] at hcs
  rw [overlapsAt_eq, ← heq, List.filter_map, ← filter_tagCauses hcs]
  rfl

/-- At most one finding about windows is reported for a key. -/
theorem length_overlapsAt_tagFindings_le (key : Text) (h : tagFindings α entries = .ok fs)
    (hnodup : (entries.map Prod.fst).Nodup) : (overlapsAt key fs).length ≤ 1 := by
  by_cases hkey : ∃ e ∈ entries, e.1 = key ∧ isConditionalKey e.1 = true
  · obtain ⟨⟨k, value⟩, hmem, rfl, hconditional⟩ := hkey
    rw [overlapsAt_tagFindings h hnodup hmem hconditional, List.length_map]
    exact length_overlapCauses_le _
  · have hnone : overlapsAt key fs = [] := by
      refine List.filter_eq_nil_iff.mpr fun f hf hat => hkey ?_
      obtain ⟨e, he, hfe, hconditional⟩ := exists_tag_of_mem_tagFindings h f hf
      exact ⟨e, he, hfe ▸ beq_iff_eq.mp (Bool.and_eq_true_iff.mp hat).1, hconditional⟩
    rw [hnone]
    exact Nat.zero_le 1

/-- The findings about windows of a review are those about its tags. -/
theorem exists_tagFindings {tags : OrderedMap Text (Option Text)} (h : findings α tags = .ok fs) :
    ∃ own, tagFindings α tags.entries = .ok own ∧
      ∀ key, overlapsAt key fs = overlapsAt key own := by
  obtain ⟨own, hown, rfl⟩ := findings_eq_ok_iff.mp h
  refine ⟨own, hown, fun key => ?_⟩
  have hconflicts : overlapsAt key (conflictFindings tags) = [] := by
    refine List.filter_eq_nil_iff.mpr fun f hf hat => ?_
    have hconflict := isConflict_of_mem_conflictFindings f hf
    have hoverlap := (Bool.and_eq_true_iff.mp hat).2
    cases hcause : f.cause <;> rw [hcause] at hconflict hoverlap <;> contradiction
  unfold overlapsAt at hconflicts ⊢
  rw [List.filter_append, hconflicts, List.append_nil]

theorem overlapsAt_ne_nil_iff :
    overlapsAt key fs ≠ [] ↔ ∃ f ∈ fs, f.key = key ∧ f.code = .overlappingConditions := by
  unfold overlapsAt
  rw [ne_eq, List.filter_eq_nil_iff]
  push Not
  simp only [Bool.and_eq_true, beq_iff_eq, Finding.code_eq_overlappingConditions_iff]

end Findings

/-- **The finding about overlapping windows is exact**: it is reported for a conditional tag that is
read just when two of its windows are both active at some point. For no key it is reported twice. -/
theorem findings_overlap_iff {α : Type} [Quantity α] {tags : OrderedMap Text (Option Text)}
    {fs : List Finding} (h : findings α tags = .ok fs) :
    (∀ key value (r : Restriction α), tags.get? key = some value → isConditionalKey key = true →
      Restriction.read key value = .ok r →
      ((∃ f ∈ fs, f.key = key ∧ f.code = .overlappingConditions) ↔
        ∃ (i j : Nat) (v w : TimeWindow), i < j ∧ r.windows[i]? = some v ∧
          r.windows[j]? = some w ∧
            ∃ t : LocalTime, v.isActiveAt t = true ∧ w.isActiveAt t = true)) ∧
    ∀ key, (fs.filter fun f => f.key == key && f.code == .overlappingConditions).length ≤ 1 := by
  obtain ⟨own, hown, heq⟩ := exists_tagFindings h
  constructor
  · intro key value r hget hconditional hread
    have hstated : statedWindows α key value = r.windows := by
      unfold statedWindows
      rw [hread]
    have hwhole := Restriction.isWhole_of_read hread
    rw [← overlapsAt_ne_nil_iff, heq,
      overlapsAt_tagFindings hown tags.nodup (OrderedMap.get?_eq_some_iff.mp hget) hconditional,
      ne_eq, List.map_eq_nil_iff, hstated, ← ne_eq, overlapCauses_ne_nil_iff]
    refine exists₄_congr fun i j v w => and_congr_right fun _ => and_congr_right fun hv =>
      and_congr_right fun hw => ?_
    exact TimeWindow.overlaps_iff (hwhole v (List.mem_of_getElem? hv))
      (hwhole w (List.mem_of_getElem? hw))
  · intro key
    have hcode : ∀ f : Finding, (f.code == .overlappingConditions) = f.cause.isOverlap := fun f =>
      Bool.eq_iff_iff.mpr (beq_iff_eq.trans Finding.code_eq_overlappingConditions_iff)
    simp only [hcode]
    show (overlapsAt key fs).length ≤ 1
    rw [heq]
    exact length_overlapsAt_tagFindings_le key hown tags.nodup

/-- A tag with windows that overlap on Monday mornings. -/
def mondayTags : OrderedMap Text (Option Text) :=
  .ofList [("access:conditional", some "no @ (Mo-Fr 07:00-09:00; Mo 08:00-10:00)")]

theorem findings_overlap_iff_monday :
    ∃ (fs : List Finding) (r : Restriction ℚ), findings ℚ mondayTags = .ok fs ∧
      Restriction.read "access:conditional"
        (some "no @ (Mo-Fr 07:00-09:00; Mo 08:00-10:00)") = .ok r ∧
      (∃ f ∈ fs, f.key = "access:conditional" ∧ f.code = .overlappingConditions) ∧
      ∃ (i j : Nat) (v w : TimeWindow), i < j ∧ r.windows[i]? = some v ∧
        r.windows[j]? = some w ∧
          ∃ t : LocalTime, v.isActiveAt t = true ∧ w.isActiveAt t = true := by
  have hmade : ((findings ℚ mondayTags).map fun fs : List Finding => decide
      (∃ f ∈ fs, f.key = "access:conditional" ∧ f.code = .overlappingConditions)) = .ok true := by
    decide +kernel
  obtain ⟨fs, hfs, hreported⟩ := map_eq_ok.mp hmade
  obtain ⟨r, hr⟩ := exists_eq_ok (x := (Restriction.read "access:conditional"
    (some "no @ (Mo-Fr 07:00-09:00; Mo 08:00-10:00)") : Except Fault (Restriction ℚ)))
    (by decide +kernel)
  have hexact := (findings_overlap_iff hfs).1 _ _ r (by decide +kernel) (by decide +kernel) hr
  exact ⟨fs, r, hfs, hr, of_decide_eq_true hreported, hexact.mp (of_decide_eq_true hreported)⟩

end Review

end RoadRules
