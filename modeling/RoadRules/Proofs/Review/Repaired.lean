import RoadRules.Proofs.Condition.Words
import RoadRules.Proofs.Review.Recase

set_option autoImplicit false

/-! # Names in the wrong case are repaired

If the names of days and months in an accepted value are put into other cases, so that the value is
refused, the correction that is suggested is the accepted value again, provided that each name that
was changed is a word of its own. The reader of conditions takes a name apart from the digits of a
time beside it, and the search for a correction does not; so a name beside a time is not repaired
(`suggest?_recased_iff`). -/

namespace RoadRules

open Text Condition Calendar

namespace Suggestion

/-! ## Accepted conditions have no mistakes -/

section Accepted

variable {s w y : Text}

theorem mem_names_of_mem_marks {ms : List Mark} (h : .atom (.word w) ∈ ms.flatMap Mark.tokens) :
    w ∈ names := by
  rcases isNamed_of_mem_marks h with ⟨d, rfl⟩ | ⟨m, rfl⟩
  · have hall : ∀ d : Weekday, Text.ofString (NamedCycle.name d) ∈ names := by
      intro d
      cases d <;> decide
    exact hall d
  · have hall : ∀ m : Month, Text.ofString (NamedCycle.name m) ∈ names := by
      intro m
      cases m <;> decide
    exact hall m

/-- **No word of an accepted condition is recased.** -/
theorem recaseWord_of_acceptable (h : IsAcceptable s) (hw : HasWord isWordChar s w) :
    recaseWord w = w := by
  by_cases hletters : ∀ c ∈ w, c.isAlpha = true
  · rcases h with hcomparison | ⟨ms, hspells⟩
    · have hlength := hcomparison.length_of_hasWord hw hletters
      exact recaseWord_of_length (by omega)
    · have hword : HasWord CodePoint.isAlpha s w :=
        hw.of_class hletters fun c => not_isAlpha_of_not_isWordChar
      exact recaseWord_of_spelt (mem_names_of_mem_marks (hspells.mem_of_hasWord hword)) rfl
  · push Not at hletters
    obtain ⟨c, hc, halpha⟩ := hletters
    exact recaseWord_of_not_isAlpha hc (Bool.eq_false_iff.mpr halpha)

/-- The small letters that each misspelling begins with. -/
def stems : List Text := misspellings.map fun m => (m.1.map CodePoint.toLower).take 3

/-- No word of an accepted condition has one of these letters in a row, in any case. -/
theorem not_stem_isInfix (h : IsAcceptable s) (hw : HasWord CodePoint.isAlpha s w) :
    ∀ x ∈ stems, ¬ x <:+: w.map CodePoint.toLower := by
  intro x hx hwithin
  rcases h with hcomparison | ⟨ms, hspells⟩
  · -- A comparison does not have all of the letters.
    have hforeign : ∀ x ∈ stems, ∃ c ∈ x, c ∉ boundLetters := by decide
    obtain ⟨c, hc, hno⟩ := hforeign x hx
    obtain ⟨d, hd, rfl⟩ := List.mem_map.mp (hwithin.mem hc)
    obtain ⟨a, b, rfl, -, hletters, -⟩ := hw
    exact hno (hcomparison.toLower_mem (by simp [hd]) (hletters d hd))
  · have hnames : ∀ name ∈ names, ∀ x ∈ stems, ¬ x <:+: name.map CodePoint.toLower := by
      decide +kernel
    exact hnames w (mem_names_of_mem_marks (hspells.mem_of_hasWord hw)) x hx hwithin

end Accepted

/-! ## Values -/

section Values

variable {α : Type} [Quantity α] {key before after after' : Text} {r : Restriction α}

theorem not_isWordChar_of_isBetween {c : CodePoint} (h : IsBetween c) : isWordChar c = false := by
  rcases h with hblank | rfl | rfl | rfl
  · exact not_isWordChar_of_isBlank hblank
  · decide
  · decide
  · decide

/-- **An accepted value is not recased** after the at sign. -/
theorem recase_of_read (hat : .char '@' ∉ before)
    (h : Restriction.read key (some (before ++ .char '@' :: after)) = .ok r) :
    recase after = after := by
  obtain ⟨inner, hafter, hparts⟩ := exists_acceptable_of_read hat h
  refine recase_eq_self fun w hw => ?_
  obtain ⟨part, hpart, hword⟩ :=
    exists_hasWord_of_enclosed (fun c => not_isWordChar_of_isBetween) hafter hw
  exact recaseWord_of_acceptable (hparts part hpart) hword

/-- **A misspelling does not come from the case of names**: none occurs after the at sign of an
accepted value, in whatever case its letters are written. -/
theorem not_misspelt_of_read (hat : .char '@' ∉ before)
    (h : Restriction.read key (some (before ++ .char '@' :: after)) = .ok r)
    (hlower : after'.map CodePoint.toLower = after.map CodePoint.toLower) :
    ∀ m ∈ misspellings, ¬ m.1 <:+: after' := by
  intro m hm hwithin
  obtain ⟨inner, hafter, hparts⟩ := exists_acceptable_of_read hat h
  have hstem : (m.1.map CodePoint.toLower).take 3 ∈ stems := List.mem_map_of_mem hm
  have hstems : ∀ x ∈ stems, x ≠ [] ∧ ∀ c ∈ x, c.isAlpha = true := by decide
  obtain ⟨hne, hletters⟩ := hstems _ hstem
  have hstart : (m.1.map CodePoint.toLower).take 3 <:+: after.map CodePoint.toLower := by
    rw [← hlower]
    exact (List.take_prefix 3 _).isInfix.trans (hwithin.map CodePoint.toLower)
  -- The letters stand in the accepted value in some case, and belong to one of its words.
  obtain ⟨y, hy, hyx⟩ := List.infix_map_iff.mp hstart
  have hyne : y ≠ [] := by
    rintro rfl
    exact hne (by rw [hyx]; rfl)
  have hyletters : ∀ c ∈ y, c.isAlpha = true := by
    intro c hc
    rw [← CodePoint.isAlpha_toLower]
    exact hletters _ (hyx ▸ List.mem_map_of_mem hc)
  obtain ⟨w, hw, hyw⟩ := exists_hasWord hyne hyletters hy
  obtain ⟨part, hpart, hword⟩ := exists_hasWord_of_enclosed
    (fun c hc => not_isAlpha_of_not_isWordChar (not_isWordChar_of_isBetween hc)) hafter hw
  refine not_stem_isInfix (hparts part hpart) hword _ hstem ?_
  rw [hyx]
  exact hyw.map CodePoint.toLower

end Values

/-! ## The other corrections -/

section Others

variable {s s' : Text}

theorem parenthesis_ne (c : CodePoint) :
    parenthesis c ≠ .char '[' ∧ parenthesis c ≠ .char '\x7b' := by
  unfold parenthesis
  split
  · exact ⟨by decide, by decide⟩
  · rename_i hopen
    split
    · exact ⟨by decide, by decide⟩
    · rw [Bool.or_eq_true, not_or, beq_iff_eq, beq_iff_eq] at hopen
      exact hopen

/-- Brackets become other characters, and not letters of another case. -/
theorem brackets?_ne (h : s'.map CodePoint.toLower = s.map CodePoint.toLower) :
    brackets? s' ≠ some s := by
  intro hbrackets
  unfold brackets? at hbrackets
  split at hbrackets
  · rename_i hcontains
    have hs : s'.map parenthesis = s := Option.some.inj hbrackets
    obtain ⟨b, hb, hbracket⟩ : ∃ b ∈ s', b = .char '[' ∨ b = .char '\x7b' := by
      rw [Bool.or_eq_true, List.contains_iff_mem, List.contains_iff_mem] at hcontains
      exact hcontains.elim (fun h => ⟨_, h, Or.inl rfl⟩) fun h => ⟨_, h, Or.inr rfl⟩
    have hnot : b.isAlpha = false := by rcases hbracket with rfl | rfl <;> decide
    obtain ⟨c, -, hc⟩ := List.mem_map.mp (hs ▸ mem_of_map_toLower_eq hnot h hb)
    have hne := parenthesis_ne c
    rw [hc] at hne
    exact hbracket.elim hne.1 hne.2
  · cases hbrackets

theorem parentheses?_eq_none (h : .char '(' ∈ s) : parentheses? s = none := by
  have hcontains : s.contains (.char '(') = true := List.contains_iff_mem.mpr h
  unfold parentheses?
  split
  · rw [if_pos hcontains]
  · rfl

/-- A blank becomes a space, or nothing after another blank. -/
theorem length_squeezeFrom_blank {c : CodePoint} (hc : isBlank c = true) (blank : Bool)
    (rest : Text) :
    (squeezeFrom blank (c :: rest)).length =
      (if blank then 0 else 1) + (squeezeFrom true rest).length := by
  rw [squeezeFrom, if_pos hc, List.length_append]
  congr 1
  cases blank <;> decide

theorem length_squeezeFrom_le (blank : Bool) (s : Text) :
    (squeezeFrom blank s).length ≤ s.length := by
  induction s generalizing blank with
  | nil => exact Nat.le_refl 0
  | cons c rest ih =>
      by_cases hc : isBlank c = true
      · have hrest := ih true
        rw [length_squeezeFrom_blank hc, List.length_cons]
        split <;> omega
      · rw [squeezeFrom, if_neg hc, List.length_cons, List.length_cons]
        exact Nat.succ_le_succ (ih false)

/-- Two spaces next to each other become one. -/
theorem length_squeezeFrom_lt (blank : Bool) (h : hasDoubledSpace s = true) :
    (squeezeFrom blank s).length < s.length := by
  unfold hasDoubledSpace at h
  induction s generalizing blank with
  | nil => cases h
  | cons c rest ih =>
      rw [occursIn, Bool.or_eq_true] at h
      rcases h with hhere | hlater
      · obtain ⟨tail, htail⟩ := List.isPrefixOf_iff_prefix.mp hhere
        have hspaces : CodePoint.char ' ' :: CodePoint.char ' ' :: tail = c :: rest := htail
        obtain ⟨rfl, rfl⟩ := List.cons.inj hspaces
        have hblank : isBlank (.char ' ') = true := by decide
        have htail := length_squeezeFrom_le true tail
        rw [length_squeezeFrom_blank hblank, length_squeezeFrom_blank hblank, if_pos rfl,
          List.length_cons, List.length_cons]
        split <;> omega
      · by_cases hc : isBlank c = true
        · have hrest := ih true hlater
          rw [length_squeezeFrom_blank hc, List.length_cons]
          split <;> omega
        · rw [squeezeFrom, if_neg hc, List.length_cons, List.length_cons]
          exact Nat.succ_lt_succ (ih false hlater)

/-- A text becomes shorter when its spaces are squeezed. -/
theorem spaces?_ne (h : s'.length = s.length) : spaces? s' ≠ some s := by
  intro hspaces
  unfold spaces? at hspaces
  split at hspaces
  · rename_i hdoubled
    have hs : trim (squeezeFrom false s') = s := Option.some.inj hspaces
    have hshorter := length_squeezeFrom_lt false hdoubled
    have htrim := (trim_isInfix (squeezeFrom false s')).length_le
    rw [hs] at htrim
    omega
  · cases hspaces

end Others

/-! ## The correction of a case -/

section Cases

variable {s s' : Text}

/-- **When a text is corrected to one of other cases** and has no misspelling: just when it is
recased to it. -/
theorem ofText?_eq_some_iff (hspelling : ∀ m ∈ misspellings, ¬ m.1 <:+: s')
    (hlower : s'.map CodePoint.toLower = s.map CodePoint.toLower) (hopen : .char '(' ∈ s')
    (hne : s' ≠ s) : ofText? s' = some s ↔ recase s' = s := by
  have hnone : spelling? s' = none := by
    have hfind : (misspellings.find? fun m => occursIn m.1 s') = none := by
      refine List.find?_eq_none.mpr fun m hm hoccurs => ?_
      exact hspelling m hm (occursIn_iff.mp hoccurs)
    rw [spelling?, hfind]
    rfl
  have hofText : ofText? s' =
      (case? s' <|> brackets? s' <|> parentheses? s' <|> spaces? s') := by
    rw [ofText?, hnone]
    rfl
  rw [hofText]
  by_cases hsame : recase s' = s'
  · -- No name is in a wrong case, and the other corrections change more than cases.
    have hcase : case? s' = none := by
      rw [case?, if_neg (by simpa using hsame)]
    have hlength : s'.length = s.length := by simpa using congrArg List.length hlower
    rw [hcase, hsame, parentheses?_eq_none hopen]
    refine iff_of_false (fun hothers => ?_) hne
    cases hbrackets : brackets? s' with
    | some t =>
        rw [hbrackets] at hothers
        exact brackets?_ne hlower (hbrackets.trans hothers)
    | none =>
        rw [hbrackets] at hothers
        exact spaces?_ne hlength hothers
  · have hcase : case? s' = some (recase s') := by
      rw [case?, if_pos (by simpa using hsame)]
    rw [hcase]
    exact Option.some_inj

end Cases

end Suggestion

section Repairs

open Suggestion

variable {α : Type} [Quantity α]

/-- **When names in the wrong case are repaired.** Let a value be accepted that has no misspelling
and no word in front of the at sign that spells a name of a day or month. If names after the at sign
are put into other cases so that the value is refused, then the accepted value is suggested just
when every name that was changed is a word of its own. -/
theorem suggest?_recased_iff {key before after after' : Text} {r : Restriction α} {f : Fault}
    (hread : Restriction.read key (some (before ++ .char '@' :: after)) = .ok r)
    (hat : .char '@' ∉ before)
    (hbefore : ∀ w, HasWord isWordChar before w →
      ∀ name ∈ names, w.map CodePoint.toLower ≠ name.map CodePoint.toLower)
    (hspelling : ∀ m ∈ misspellings, ¬ m.1 <:+: before ++ .char '@' :: after)
    (hrecased : Recased CodePoint.isAlpha (some '@') after after')
    (hrefused : (Restriction.read key (some (before ++ .char '@' :: after')) :
      Except Fault (Restriction α)) = .error f) :
    suggest? (before ++ .char '@' :: after') = some (before ++ .char '@' :: after) ↔
      Recased isWordChar (some '@') after after' := by
  have hword : isWordChar '@' = false := by decide
  have hvalues : (before ++ .char '@' :: after').map CodePoint.toLower =
      (before ++ .char '@' :: after).map CodePoint.toLower := by
    simp only [List.map_append, List.map_cons, hrecased.map_toLower]
  have hmistakes : ∀ m ∈ misspellings, ¬ m.1 <:+: before ++ .char '@' :: after' := by
    intro m hm hwithin
    have hno : ∀ m ∈ misspellings, CodePoint.char '@' ∉ m.1 := by decide
    rcases infix_of_append_cons (hno m hm) hwithin with hfront | hback
    · exact hspelling m hm (hfront.trans (List.prefix_append _ _).isInfix)
    · exact not_misspelt_of_read hat hread hrecased.map_toLower m hm hback
  have hopen : .char '(' ∈ before ++ .char '@' :: after' := by
    obtain ⟨inner, hafter, -⟩ := exists_acceptable_of_read hat hread
    have hmem : CodePoint.char '(' ∈ after :=
      (trim_isInfix after).mem (hafter ▸ List.mem_cons_self)
    have hmem' := mem_of_map_toLower_eq (by decide) hrecased.map_toLower.symm hmem
    exact List.mem_append_right _ (List.mem_cons_of_mem _ hmem')
  have hne : before ++ .char '@' :: after' ≠ before ++ .char '@' :: after := by
    intro heq
    rw [heq, hread] at hrefused
    cases hrefused
  have hfront : recase before = before :=
    recase_eq_self fun w hw => recaseWord_of_not_spelt (hbefore w hw)
  unfold suggest?
  rw [ofText?_eq_some_iff hmistakes hvalues hopen hne, recase_append_cons hword, hfront,
    List.append_cancel_left_eq, List.cons.injEq, and_iff_right rfl]
  constructor
  · intro hback
    have hwords : Recased isWordChar (some '@') (recase after') after' :=
      recased_recase after' (by rintro _ ⟨⟩; exact hword)
    rwa [hback] at hwords
  · intro hwords
    rw [hwords.recase_eq]
    exact recase_of_read hat hread

/-- Hours on some days, with the names of the days in their right case, -/
def rightDays : Text := " (Mo-Fr 07:00-19:00)"

/-- and in wrong ones. -/
def wrongDays : Text := " (mo-FR 07:00-19:00)"

theorem recased_wrongDays {p : CodePoint → Bool} (hopen : p '(' = false) (hdash : p '-' = false)
    (hspace : p ' ' = false) : Recased p (some '@') rightDays wrongDays := by
  have hright : rightDays = .char ' ' :: .char '(' :: (Text.ofString "Mo" ++ .char '-' ::
      (Text.ofString "Fr" ++ .char ' ' :: Text.ofString "07:00-19:00)")) := by decide +kernel
  have hwrong : wrongDays = .char ' ' :: .char '(' :: (Text.ofString "mo" ++ .char '-' ::
      (Text.ofString "FR" ++ .char ' ' :: Text.ofString "07:00-19:00)")) := by decide +kernel
  have hhours : ∀ last, Recased p last (Text.ofString "07:00-19:00)" ++ [])
      (Text.ofString "07:00-19:00)" ++ []) := fun last => .append_left _ fun _ => .nil
  rw [List.append_nil] at hhours
  rw [hright, hwrong]
  refine .char (.char (.name (by decide) (by decide) ?_ ?_ (.char (.name (by decide) (by decide) ?_
    ?_ (.char (hhours _))))))
  · rintro _ ⟨⟩
    exact hopen
  · rintro _ ⟨⟩
    exact hdash
  · rintro _ ⟨⟩
    exact hdash
  · rintro _ ⟨⟩
    exact hspace

/-- The word "no" spells no name. -/
theorem not_spelt_no : ∀ w, HasWord isWordChar "no " w →
    ∀ name ∈ names, w.map CodePoint.toLower ≠ name.map CodePoint.toLower := by
  intro w hw
  have hparts : Text.ofString "no " = Text.ofString "no" ++ [.char ' '] := by decide
  rw [hparts] at hw
  have hword : w = Text.ofString "no" :=
    (hw.of_append_right (by decide)).eq_self (by decide)
  rw [hword]
  decide

theorem suggest?_recased_iff_wrongDays :
    ∃ (r : Restriction ℚ) (f : Fault),
      Restriction.read "hgv:conditional" (some ("no " ++ .char '@' :: rightDays)) = .ok r ∧
        (Restriction.read "hgv:conditional" (some ("no " ++ .char '@' :: wrongDays)) :
          Except Fault (Restriction ℚ)) = .error f ∧
        suggest? ("no " ++ .char '@' :: wrongDays) = some ("no " ++ .char '@' :: rightDays) := by
  have hread : (Restriction.read "hgv:conditional" (some ("no " ++ .char '@' :: rightDays)) :
      Except Fault (Restriction ℚ)).isOk = true := by decide +kernel
  have hrefused : (Restriction.read "hgv:conditional" (some ("no " ++ .char '@' :: wrongDays)) :
      Except Fault (Restriction ℚ)) =
        .error (.refused "hgv:conditional" (.unknownDay "mo")) := by decide +kernel
  obtain ⟨r, hr⟩ := exists_eq_ok hread
  refine ⟨r, _, hr, hrefused, ?_⟩
  exact (suggest?_recased_iff hr (by decide) not_spelt_no (by decide +kernel)
    (recased_wrongDays (by decide) (by decide) (by decide)) hrefused).mpr
      (recased_wrongDays (by decide) (by decide) (by decide))

/-- Hours with the name of a day directly in front of them, -/
def rightHours : Text := " (Mo07:00-09:00)"

/-- and with the name in a wrong case. -/
def wrongHours : Text := " (mo07:00-09:00)"

theorem recased_wrongHours : Recased CodePoint.isAlpha (some '@') rightHours wrongHours := by
  have hright : rightHours = .char ' ' :: .char '(' ::
      (Text.ofString "Mo" ++ (Text.ofString "07:00-09:00)" ++ [])) := by decide +kernel
  have hwrong : wrongHours = .char ' ' :: .char '(' ::
      (Text.ofString "mo" ++ (Text.ofString "07:00-09:00)" ++ [])) := by decide +kernel
  rw [hright, hwrong]
  refine .char (.char (.name (by decide) (by decide) ?_ ?_ (.append_left _ fun _ => .nil)))
  · rintro _ ⟨⟩
    decide
  · rintro _ ⟨⟩
    decide

/-- **Not every name in a wrong case is repaired**: the name of a day in front of a time is no word
of its own, and nothing is suggested. -/
theorem suggest?_unrepaired :
    ¬ ∀ (key before after after' : Text) (r : Restriction ℚ) (f : Fault),
      Restriction.read key (some (before ++ .char '@' :: after)) = .ok r →
        .char '@' ∉ before →
          (∀ w, HasWord isWordChar before w →
            ∀ name ∈ names, w.map CodePoint.toLower ≠ name.map CodePoint.toLower) →
            (∀ m ∈ misspellings, ¬ m.1 <:+: before ++ .char '@' :: after) →
              Recased CodePoint.isAlpha (some '@') after after' →
                (Restriction.read key (some (before ++ .char '@' :: after')) :
                  Except Fault (Restriction ℚ)) = .error f →
                  suggest? (before ++ .char '@' :: after') =
                    some (before ++ .char '@' :: after) := by
  intro hall
  have hread : (Restriction.read "hgv:conditional" (some ("no " ++ .char '@' :: rightHours)) :
      Except Fault (Restriction ℚ)).isOk = true := by decide +kernel
  have hrefused : (Restriction.read "hgv:conditional" (some ("no " ++ .char '@' :: wrongHours)) :
      Except Fault (Restriction ℚ)) =
        .error (.refused "hgv:conditional" (.unknownDay "mo")) := by decide +kernel
  have hnothing : suggest? ("no " ++ .char '@' :: wrongHours) = none := by decide +kernel
  obtain ⟨r, hr⟩ := exists_eq_ok hread
  have hsuggested := hall _ _ _ _ r _ hr (by decide) not_spelt_no (by decide +kernel)
    recased_wrongHours hrefused
  rw [hnothing] at hsuggested
  cases hsuggested

end Repairs

end RoadRules
