import RoadRules.Proofs.Number.Rational
import RoadRules.Proofs.Review.Tags

set_option autoImplicit false

/-! # A review and a check agree

A check of one tag gives a verdict, a review of all tags gives findings. Both rest on the same
reading: a conditional tag with a value has one finding about its syntax if the verdict is that it is
refused, under a code that the code of the verdict tells, and then nothing else is said about its
value; it has none if the verdict is that it is valid (`Review.findings_agree`). -/

namespace RoadRules

open Text Condition

/-! ## Codes -/

/-- The codes of findings about syntax. -/
def syntaxCodes : List FindingCode := [.invalidSyntax, .malformedCondition, .deprecatedSyntax]

theorem syntaxCode_mem (r : Refusal) : syntaxCode r ∈ syntaxCodes := by
  unfold syntaxCode
  split <;> decide

/-- Refused values have codes of their own. -/
theorem Finding.code_mem_syntaxCodes_iff {f : Finding} :
    f.code ∈ syntaxCodes ↔ f.cause.isRefusal = true := by
  unfold Finding.code
  cases f.cause with
  | refused r value => exact ⟨fun _ => rfl, fun _ => syntaxCode_mem r⟩
  | overlap v w => exact ⟨nofun, nofun⟩
  | unusualAccess value => exact ⟨nofun, nofun⟩
  | invalidOneway value => exact ⟨nofun, nofun⟩
  | implausibleSpeed value => exact ⟨nofun, nofun⟩
  | milesPerHour value => exact ⟨nofun, nofun⟩
  | conflict base value keys => exact ⟨nofun, nofun⟩

/-- The codes of refusals that are about the frame of a tag. -/
def frameCodes : List Condition.Code :=
  [.emptyTagValue, .missingValue, .unbalancedParentheses, .emptyCondition]

/-- **Under which code a refusal is reported.** -/
theorem syntaxCode_eq_iff (r : Refusal) :
    (syntaxCode r = .deprecatedSyntax ↔ r.code = .missingAtSign) ∧
      (syntaxCode r = .invalidSyntax ↔ r.code ∈ frameCodes) ∧
        (syntaxCode r = .malformedCondition ↔ r.code ≠ .missingAtSign ∧ r.code ∉ frameCodes) := by
  unfold syntaxCode
  cases r.code <;> decide

/-! ## One tag -/

namespace Review

variable {α : Type} [Quantity α] {tags : OrderedMap Text (Option Text)} {fs : List Finding}
  {key v : Text} {cs : List Cause}

/-- **What a review and a check say about a tag with a value**: it is valid, and the review says
something about its value and its windows at most; or it is refused, and the review says just this. -/
theorem verdict_cases (hvalue : allBlank v = false) (h : tagCauses α key (some v) = .ok cs) :
    (∃ message, Verdict.ofTag α key (some v) = .ok ⟨true, message, none⟩ ∧
      ∀ c ∈ cs, c.isAboutValue = true ∨ c.isOverlap = true) ∨
    ∃ cause message, Verdict.ofTag α key (some v) = .ok ⟨false, message, some cause.code⟩ ∧
      cs = [.refused cause v] := by
  rcases tagCauses_eq_ok h with ⟨hblank, -⟩ | ⟨r, hread, hr⟩ | ⟨k, cause, hread, rfl⟩
  · rw [Option.getD_some, hvalue] at hblank
    cases hblank
  · exact Or.inl ⟨_, by rw [Verdict.ofTag, hread], mem_restrictionCauses hr⟩
  · exact Or.inr ⟨cause, _, by rw [Verdict.ofTag, hread], rfl⟩

/-! ## All tags -/

/-- The findings about syntax that are reported for a key. -/
def syntaxFindingsAt (key : Text) (fs : List Finding) : List Finding :=
  fs.filter fun f => f.key == key && syntaxCodes.contains f.code

/-- The findings about the syntax of a tag. -/
theorem exists_syntaxFindingsAt (h : findings α tags = .ok fs)
    (hget : tags.get? key = some (some v)) (hconditional : isConditionalKey key = true) :
    ∃ cs, tagCauses α key (some v) = .ok cs ∧
      syntaxFindingsAt key fs = (cs.filter Cause.isRefusal).map (Finding.mk key) ∧
        ∀ f ∈ fs, f.key = key → f.cause ∈ cs ∨ f.cause.isConflict = true := by
  obtain ⟨cs, hcs, hfilter⟩ := exists_filter_key h hget
  rw [causesOf, if_pos hconditional] at hcs
  refine ⟨cs, hcs, ?_, fun f hf hkey => ?_⟩
  · have hcodes : ∀ f : Finding, syntaxCodes.contains f.code = f.cause.isRefusal := fun f =>
      Bool.eq_iff_iff.mpr (List.contains_iff_mem.trans Finding.code_mem_syntaxCodes_iff)
    have hconflicts : ((conflictFindings tags).filter fun f => f.key == key).filter
        (fun f => f.cause.isRefusal) = [] := by
      refine List.filter_eq_nil_iff.mpr fun f hf hrefusal => ?_
      have hconflict := isConflict_of_mem_conflictFindings f (List.mem_of_mem_filter hf)
      cases hcause : f.cause <;> rw [hcause] at hrefusal hconflict <;> contradiction
    have hsplit : syntaxFindingsAt key fs =
        (fs.filter fun f => f.key == key).filter fun f => f.cause.isRefusal := by
      unfold syntaxFindingsAt
      simp only [hcodes, List.filter_filter, Bool.and_comm]
    rw [hsplit, hfilter, List.filter_append, hconflicts, List.append_nil, List.filter_map]
    rfl
  · have hmem : f ∈ fs.filter fun f => f.key == key :=
      List.mem_filter.mpr ⟨hf, beq_iff_eq.mpr hkey⟩
    rw [hfilter] at hmem
    rcases List.mem_append.mp hmem with hmem | hmem
    · obtain ⟨c, hc, rfl⟩ := List.mem_map.mp hmem
      exact Or.inl hc
    · exact Or.inr (isConflict_of_mem_conflictFindings f (List.mem_of_mem_filter hmem))

/-- **A review and a check agree on every tag.** A conditional tag with a value has a verdict. If it
is valid, no finding is about its syntax. If it is refused, just one is, its code is told by that of
the verdict, and no other finding of the tag is about its value or its windows. All findings come in
the order of the tags, and after them the warnings about conflicts: one for each conditional key whose
base is a key too, also in the order of the tags. -/
theorem findings_agree (h : findings α tags = .ok fs) :
    (∀ key v, tags.get? key = some (some v) → isConditionalKey key = true → allBlank v = false →
      ∃ verdict, Verdict.ofTag α key (some v) = .ok verdict ∧
        (verdict.isValid = true → syntaxFindingsAt key fs = []) ∧
        (verdict.isValid = false → ∃ f code, syntaxFindingsAt key fs = [f] ∧
          verdict.code = some code ∧
          (f.code = .deprecatedSyntax ↔ code = .missingAtSign) ∧
          (f.code = .invalidSyntax ↔ code ∈ frameCodes) ∧
          (f.code = .malformedCondition ↔ code ≠ .missingAtSign ∧ code ∉ frameCodes) ∧
          ∀ g ∈ fs, g.key = key → g = f ∨ g.cause.isConflict = true)) ∧
    ∃ own, (fs = own ++ (tags.keys.filter isConditionalKey).filterMap fun key =>
        (tags.get? (baseKey key)).map fun value => ⟨key, .conflict (baseKey key) value [key]⟩) ∧
      (own = tags.keys.flatMap fun key => own.filter fun f => f.key == key) ∧
      ∀ f ∈ own, f.cause.isConflict = false := by
  constructor
  · intro key v hget hconditional hvalue
    obtain ⟨cs, hcs, hreported, hothers⟩ := exists_syntaxFindingsAt h hget hconditional
    rcases verdict_cases hvalue hcs with ⟨message, hverdict, hall⟩ | ⟨cause, message, hverdict, rfl⟩
    · refine ⟨_, hverdict, fun _ => ?_, nofun⟩
      rw [hreported, List.map_eq_nil_iff, List.filter_eq_nil_iff]
      intro c hc hrefusal
      rcases hall c hc with habout | habout <;> cases c <;> contradiction
    · obtain ⟨hdeprecated, hinvalid, hmalformed⟩ := syntaxCode_eq_iff cause
      refine ⟨_, hverdict, nofun, fun _ => ⟨⟨key, .refused cause v⟩, cause.code, hreported, rfl,
        hdeprecated, hinvalid, hmalformed, fun g hg hkey => ?_⟩⟩
      refine (hothers g hg hkey).imp_left fun hcause => ?_
      obtain ⟨k, c⟩ := g
      cases hkey
      cases List.mem_singleton.mp hcause
      rfl
  · obtain ⟨own, hown, rfl⟩ := findings_eq_ok_iff.mp h
    exact ⟨own, by rw [conflictFindings_eq], (findings_in_order hown tags.nodup).2,
      isConflict_of_mem_tagFindings hown⟩

/-- Tags among which a conditional key is itself qualified, windows overlap and a value is missing. -/
def nestedTags : OrderedMap Text (Option Text) :=
  .ofList [("access", some "yes"),
    ("access:conditional", some "no @ (Mo-Fr 07:00-09:00; Mo 08:00-10:00)"),
    ("access:conditional:conditional", some "no"), ("maxspeed", some "50"),
    ("maxspeed:conditional", none)]

theorem findings_agree_nested :
    ∃ fs : List Finding, findings ℚ nestedTags = .ok fs ∧
      (∃ f, syntaxFindingsAt "access:conditional:conditional" fs = [f] ∧
        f.code = .deprecatedSyntax) ∧
      ∃ own, fs = own ++ [
        ⟨"access:conditional", .conflict "access" (some "yes") ["access:conditional"]⟩,
        ⟨"access:conditional:conditional", .conflict "access:conditional"
          (some "no @ (Mo-Fr 07:00-09:00; Mo 08:00-10:00)") ["access:conditional:conditional"]⟩,
        ⟨"maxspeed:conditional", .conflict "maxspeed" (some "50") ["maxspeed:conditional"]⟩] := by
  obtain ⟨fs, hfs⟩ := exists_eq_ok (x := findings ℚ nestedTags) (by decide +kernel)
  obtain ⟨hagree, own, hown, -⟩ := findings_agree hfs
  obtain ⟨verdict, hverdict, -, hrefused⟩ := hagree "access:conditional:conditional" "no"
    (by decide +kernel) (by decide +kernel) (by decide +kernel)
  have hshort : (Verdict.ofTag ℚ "access:conditional:conditional" (some "no")).map
      (fun v => (v.isValid, v.code)) = .ok (false, some .missingAtSign) := by decide +kernel
  rw [hverdict] at hshort
  obtain ⟨hinvalid, hcode⟩ := Prod.mk.inj (Except.ok.inj hshort)
  obtain ⟨f, code, hf, hfcode, hdeprecated, -⟩ := hrefused hinvalid
  refine ⟨fs, hfs, ⟨f, hf, hdeprecated.mpr (Option.some.inj (hfcode.symm.trans hcode))⟩, own,
    hown.trans (congrArg (own ++ ·) ?_)⟩
  decide +kernel

end Review

end RoadRules
