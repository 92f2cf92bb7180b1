import RoadRules.Proofs.Condition.Marks
import RoadRules.Proofs.Number.Rational
import RoadRules.Proofs.Review.Tags

set_option autoImplicit false

/-! # Where a review stops

A review takes the value of a speed limit for a number if it has nothing but digit-like characters.
Not every such text is a numeral that can be read: superscripts and circled digits form none, and
there may be too many digits. A text of this kind is a lookalike. If all conditional tags are read or
refused, a review of them fails just when one that is read gives a lookalike as speed limit
(`Review.exists_findings_iff`). -/

namespace RoadRules

open Text

namespace Review

/-! ## Texts that look like numbers -/

section Lookalike

variable {s : Text}

/-- Whether a text has digit-like characters only and still is no numeral that is read: some
character is no digit, or there are too many. -/
def IsLookalike (s : Text) : Prop :=
  s ≠ [] ∧ (∀ c ∈ s, isDigitLike c = true) ∧
    (longestNatural < s.length ∨ ∃ c ∈ s, isDecimalDigit c = false)

instance (s : Text) : Decidable (IsLookalike s) :=
  inferInstanceAs (Decidable (s ≠ [] ∧ (∀ c ∈ s, isDigitLike c = true) ∧
    (longestNatural < s.length ∨ ∃ c ∈ s, isDecimalDigit c = false)))

/-- A character that is no digit spoils a numeral. -/
theorem natural?_eq_none (h : ∃ c ∈ s, isDecimalDigit c = false) : natural? s = none := by
  have hnone : s.mapM digitValue? = none := by
    obtain ⟨c, hc, hdigit⟩ := h
    induction s with
    | nil => cases hc
    | cons d rest ih =>
        rw [List.mapM_cons]
        cases hd : digitValue? d with
        | none => rfl
        | some n =>
            rcases List.mem_cons.mp hc with rfl | hc
            · rw [isDecimalDigit, hd] at hdigit
              cases hdigit
            · rw [ih hc]
              rfl
  unfold natural?
  rw [hnone, Option.map_none, ite_self]

/-- **Whether a speed limit is higher than roads have** is told of every text but a lookalike. -/
theorem exists_exceedsPlausible_iff : (∃ b, exceedsPlausible s = .ok b) ↔ ¬ IsLookalike s := by
  unfold exceedsPlausible IsLookalike
  dsimp only
  by_cases hlike : s ≠ [] ∧ ∀ c ∈ s, isDigitLike c = true
  · obtain ⟨hne, hall⟩ := hlike
    have hlooks : (s.isEmpty || !s.all isDigitLike) = false := by simpa [hne] using hall
    rw [hlooks, if_neg Bool.false_ne_true]
    by_cases hdigits : ∀ c ∈ s, isDecimalDigit c = true
    · -- A numeral is read unless it is too long.
      obtain ⟨n, hn⟩ := Condition.exists_natural? hne hdigits
      rw [List.takeWhile_eq_self_iff.mpr hdigits, hn]
      by_cases hlong : longestNatural < s.length
      · rw [if_pos hlong]
        exact ⟨nofun, fun h => absurd ⟨hne, hall, Or.inl hlong⟩ h⟩
      · rw [if_neg hlong]
        refine ⟨fun _ h => ?_, fun _ => ⟨_, rfl⟩⟩
        obtain ⟨-, -, hlong' | ⟨c, hc, hdigit⟩⟩ := h
        · exact hlong hlong'
        · rw [hdigits c hc] at hdigit
          cases hdigit
    · push Not at hdigits
      have hother : ∃ c ∈ s, isDecimalDigit c = false := by simpa using hdigits
      rw [natural?_eq_none hother]
      refine ⟨fun ⟨b, hb⟩ => ?_, fun h => absurd ⟨hne, hall, Or.inr hother⟩ h⟩
      split at hb <;> cases hb
  · have hno : (s.isEmpty || !s.all isDigitLike) = true := by
      rw [not_and_or, not_not] at hlike
      simpa using hlike
    rw [hno, if_pos rfl]
    exact ⟨fun _ h => hlike ⟨h.1, h.2.1⟩, fun _ => ⟨_, rfl⟩⟩

end Lookalike

/-! ## Tags -/

variable {α : Type} [Quantity α]

/-- Whether a restriction limits the speed to what only looks like a number. -/
def StatesLookalike (r : Restriction α) : Prop :=
  lower r.subject = "maxspeed" ∧ IsLookalike (trim r.value)

instance (r : Restriction α) : Decidable (StatesLookalike r) :=
  inferInstanceAs (Decidable (lower r.subject = "maxspeed" ∧ IsLookalike (trim r.value)))

theorem exists_valueCauses_iff {subject value : Text} :
    (∃ cs, valueCauses subject value = .ok cs) ↔
      ¬ (subject = "maxspeed" ∧ IsLookalike value) := by
  unfold valueCauses
  dsimp only
  by_cases hsubject : subject = "maxspeed"
  · rw [if_pos (beq_iff_eq.mpr hsubject), and_iff_right hsubject, ← exists_exceedsPlausible_iff]
    constructor
    · rintro ⟨cs, hcs⟩
      obtain ⟨b, hb, -⟩ := bind_eq_ok.mp hcs
      exact ⟨b, hb⟩
    · rintro ⟨b, hb⟩
      exact ⟨_, bind_eq_ok.mpr ⟨b, hb, rfl⟩⟩
  · rw [if_neg (beq_iff_eq.not.mpr hsubject)]
    exact ⟨fun _ h => hsubject h.1, fun _ => ⟨_, rfl⟩⟩

omit [Quantity α] in
theorem exists_restrictionCauses_iff {r : Restriction α} :
    (∃ cs, restrictionCauses r = .ok cs) ↔ ¬ StatesLookalike r := by
  unfold StatesLookalike
  rw [← exists_valueCauses_iff]
  constructor
  · rintro ⟨cs, hcs⟩
    obtain ⟨others, hothers, -⟩ := bind_eq_ok.mp hcs
    exact ⟨others, hothers⟩
  · rintro ⟨others, hothers⟩
    exact ⟨_, bind_eq_ok.mpr ⟨others, hothers, rfl⟩⟩

/-- A review says something about a tag that is read or refused, unless the tag states a
lookalike. -/
theorem exists_tagCauses_iff {key : Text} {value : Option Text}
    (h : (∃ r : Restriction α, Restriction.read key value = .ok r) ∨
      ∃ cause, (Restriction.read key value : Except Fault (Restriction α)) =
        .error (.refused key cause)) :
    (∃ cs, tagCauses α key value = .ok cs) ↔
      ∀ r : Restriction α, Restriction.read key value = .ok r → ¬ StatesLookalike r := by
  rcases h with ⟨r, hr⟩ | ⟨cause, hcause⟩
  · rw [tagCauses_of_read hr, exists_restrictionCauses_iff]
    constructor
    · intro hno r' hr'
      rw [hr] at hr'
      cases hr'
      exact hno
    · exact fun hno => hno r hr
  · have hanswers : ∃ cs, tagCauses α key value = .ok cs := by
      by_cases hblank : allBlank (value.getD []) = true
      · exact ⟨_, tagCauses_of_allBlank hblank⟩
      · exact ⟨_, tagCauses_of_refused (Bool.eq_false_iff.mpr hblank) hcause⟩
    refine iff_of_true hanswers fun r hr => ?_
    rw [hcause] at hr
    cases hr

/-- **A review stops just at lookalikes**: if every conditional tag is read or refused, there is a
review unless one that is read limits the speed to a lookalike. -/
theorem exists_findings_iff {tags : OrderedMap Text (Option Text)}
    (hjudged : ∀ key value, tags.get? key = some value → isConditionalKey key = true →
      (∃ r : Restriction α, Restriction.read key value = .ok r) ∨
        ∃ cause, (Restriction.read key value : Except Fault (Restriction α)) =
          .error (.refused key cause)) :
    (∃ fs, findings α tags = .ok fs) ↔
      ∀ key value (r : Restriction α), tags.get? key = some value →
        isConditionalKey key = true → Restriction.read key value = .ok r → ¬ StatesLookalike r := by
  have hmade : (∃ fs, findings α tags = .ok fs) ↔ ∃ own, tagFindings α tags.entries = .ok own := by
    simp only [findings_eq_ok_iff]
    exact ⟨fun ⟨_, own, h, _⟩ => ⟨own, h⟩, fun ⟨own, h⟩ => ⟨_, own, h, rfl⟩⟩
  rw [hmade, exists_tagFindings_iff]
  simp only [OrderedMap.get?_eq_some_iff] at hjudged ⊢
  constructor
  · intro hall key value r hmem hconditional hr
    obtain ⟨cs, hcs⟩ := hall _ hmem
    rw [causesOf, if_pos hconditional] at hcs
    exact (exists_tagCauses_iff (hjudged key value hmem hconditional)).mp ⟨cs, hcs⟩ r hr
  · rintro hall ⟨key, value⟩ hmem
    unfold causesOf
    split
    · rename_i hconditional
      exact (exists_tagCauses_iff (hjudged key value hmem hconditional)).mpr fun r hr =>
        hall key value r hmem hconditional hr
    · exact ⟨_, rfl⟩

/-- A speed limit in Arabic digits, one in miles, and a tag that is refused. -/
def limits : List (Text × Option Text) :=
  [("maxspeed:conditional", some "٢٥٠ @ (weight>3.5)"),
    ("MaxSpeed:conditional", some "30mph @ (Mo-Fr)"), ("hgv:conditional", some "no @ mo")]

theorem exists_findings_iff_limits : ∃ fs, findings ℚ (.ofList limits) = .ok fs := by
  have hentries : (OrderedMap.ofList limits).entries = limits :=
    OrderedMap.entries_ofList (by decide +kernel)
  have hsettled : ∀ e ∈ limits,
      (match (Restriction.read e.1 e.2 : Except Fault (Restriction ℚ)) with
      | .ok r => decide (¬ StatesLookalike r)
      | .error f => decide (f = .refused e.1 (.notEnclosed "mo"))) = true := by
    decide +kernel
  refine (exists_findings_iff fun key value hget _ => ?_).mpr fun key value r hget _ hr => ?_
  · rw [OrderedMap.get?_eq_some_iff, hentries] at hget
    have hcase := hsettled _ hget
    cases hread : (Restriction.read key value : Except Fault (Restriction ℚ)) with
    | ok r => exact Or.inl ⟨r, rfl⟩
    | error f =>
        rw [hread] at hcase
        exact Or.inr ⟨_, congrArg Except.error (of_decide_eq_true hcase)⟩
  · rw [OrderedMap.get?_eq_some_iff, hentries] at hget
    have hcase := hsettled _ hget
    rw [hr] at hcase
    exact of_decide_eq_true hcase

/-- A speed limit of two, written as a superscript. -/
def superscript : List (Text × Option Text) := [("maxspeed:conditional", some "² @ (Mo)")]

/-- **A review stops at a superscript**, though the tag is read. -/
theorem findings_superscript :
    (∀ key value, (OrderedMap.ofList superscript).get? key = some value →
      ∃ r : Restriction ℚ, Restriction.read key value = .ok r) ∧
      findings ℚ (.ofList superscript) = .error (.notAnInteger "'²'") := by
  constructor
  · intro key value hget
    have hentries : (OrderedMap.ofList superscript).entries = superscript :=
      OrderedMap.entries_ofList (by decide +kernel)
    rw [OrderedMap.get?_eq_some_iff, hentries] at hget
    cases List.mem_singleton.mp hget
    exact exists_eq_ok (by decide +kernel)
  · decide +kernel

end Review

end RoadRules
