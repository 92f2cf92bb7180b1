import RoadRules.Proofs.Condition.Refused
import RoadRules.Proofs.Condition.Strays
import RoadRules.Proofs.Condition.Value
import RoadRules.Proofs.Number.Rational

set_option autoImplicit false

/-! # What refusals show

A refusal shows a part of the value that is refused, as it stands there. There is one exception: two
times or words with a dash between them that do not go together are shown with the dash alone, and
the white space around it is left out. What is shown then may occur nowhere in the value
(`Restriction.read_offending`). -/

namespace RoadRules

open Text Condition

namespace Condition

/-! ## Where tokens stand -/

section Places

variable {s : Text} {t : Token} {ts l : List Token}

/-- Tokens after others are those of the end of the text. -/
theorem Spells.exists_suffix (h : Spells s (l ++ ts)) : ∃ rest, rest <:+ s ∧ Spells rest ts := by
  generalize hall : l ++ ts = all at h
  induction h generalizing l with
  | nil =>
      obtain ⟨-, rfl⟩ := List.append_eq_nil_iff.mp hall
      exact ⟨[], List.suffix_rfl, .nil⟩
  | @blank c s all hc hs ih =>
      obtain ⟨rest, hsuffix, hrest⟩ := ih hall
      exact ⟨rest, hsuffix.trans (List.suffix_cons c s), hrest⟩
  | @token t s all hwritten hends hs ih =>
      cases l with
      | nil =>
          rw [List.nil_append] at hall
          rw [hall]
          exact ⟨_, List.suffix_rfl, .token hwritten hends hs⟩
      | cons first l =>
          rw [List.cons_append, List.cons.injEq] at hall
          obtain ⟨rest, hsuffix, hrest⟩ := ih hall.2
          exact ⟨rest, hsuffix.trans (List.suffix_append t.text s), hrest⟩

/-- The first token of a text stands after white space, and the others after it. -/
theorem Spells.exists_cons (h : Spells s (t :: ts)) :
    ∃ gap rest, IsGap gap ∧ s = gap ++ (t.text ++ rest) ∧ Spells rest ts := by
  generalize hall : t :: ts = all at h
  induction h with
  | nil => cases hall
  | @blank c s all hc hs ih =>
      obtain ⟨gap, rest, hgap, rfl, hrest⟩ := ih hall
      exact ⟨c :: gap, rest, List.forall_mem_cons.mpr ⟨hc, hgap⟩, rfl, hrest⟩
  | @token t' s all hwritten hends hs _ =>
      cases hall
      exact ⟨[], s, nofun, rfl, hs⟩

/-- A token stands in its text. -/
theorem Spells.text_isInfix (h : Spells s ts) (ht : t ∈ ts) : t.text <:+: s := by
  obtain ⟨before, after, rfl⟩ := List.append_of_mem ht
  obtain ⟨end', hsuffix, hend⟩ := h.exists_suffix
  obtain ⟨gap, rest, -, rfl, -⟩ := hend.exists_cons
  exact (List.infix_append' gap t.text rest).trans hsuffix.isInfix

/-- The tokens of a range stand together in its text, with white space around the dash. -/
theorem Spells.range_isInfix {a b : Atom} (h : Spells s ts)
    (hrange : [.atom a, .dash, .atom b] <:+: ts) :
    ∃ g g', IsGap g ∧ IsGap g' ∧ a.text ++ (g ++ .char '-' :: (g' ++ b.text)) <:+: s := by
  obtain ⟨before, after, rfl⟩ := hrange
  rw [List.append_assoc] at h
  obtain ⟨end', hsuffix, hend⟩ := h.exists_suffix
  obtain ⟨gap, rest, -, rfl, hdash⟩ := hend.exists_cons
  obtain ⟨g, rest, hg, rfl, hstop⟩ := hdash.exists_cons
  obtain ⟨g', rest, hg', rfl, -⟩ := hstop.exists_cons
  refine ⟨g, g', hg, hg', List.IsInfix.trans ?_ hsuffix.isInfix⟩
  refine ⟨gap, rest, ?_⟩
  simp [Token.text, Text.ofString]

end Places

/-! ## What is shown -/

/-- Whether a refusal shows two times or words without the white space around the dash that stands
between them in a text. -/
def ShowsSpaced (s : Text) (e : Refusal) : Prop :=
  ∃ a b g g', IsGap g ∧ IsGap g' ∧ (g ≠ [] ∨ g' ≠ []) ∧
    a ++ (g ++ .char '-' :: (g' ++ b)) <:+: s ∧
      (e = .timeMixedWithWord (dashed a b) ∨ e = .dayMixedWithMonth (dashed a b))

/-- Whether a refusal shows a part of a text. -/
def Shows (s : Text) (e : Refusal) : Prop := e.offending <:+: s ∨ ShowsSpaced s e

section Shown

variable {s s' rest : Text} {e : Refusal}

/-- What stands in a part of a text stands in the text. -/
theorem Shows.mono (h : Shows s e) (hs : s <:+: s') : Shows s' e := by
  rcases h with hverbatim | ⟨a, b, g, g', hg, hg', hne, hrange, he⟩
  · exact Or.inl (hverbatim.trans hs)
  · exact Or.inr ⟨a, b, g, g', hg, hg', hne, hrange.trans hs, he⟩

/-- A range that does not go together is shown with or without what is around its dash. -/
theorem shows_range {a b g g' : Text} (hg : IsGap g) (hg' : IsGap g')
    (hrange : a ++ (g ++ .char '-' :: (g' ++ b)) <:+: s)
    (he : e = .timeMixedWithWord (dashed a b) ∨ e = .dayMixedWithMonth (dashed a b)) :
    Shows s e := by
  by_cases hgaps : g = [] ∧ g' = []
  · obtain ⟨rfl, rfl⟩ := hgaps
    have hshown : e.offending = a ++ .char '-' :: b := by
      rcases he with rfl | rfl <;> simp [Refusal.offending, dashed, Text.ofString]
    exact Or.inl (hshown ▸ hrange)
  · rw [not_and_or] at hgaps
    exact Or.inr ⟨a, b, g, g', hg, hg', hgaps, hrange, he⟩

/-- **A condition on days, months and hours** is refused for something in it. -/
theorem Refused.shows (h : Refused s e) : Shows s e := by
  cases h with
  | @token before rest c hs hlexeme =>
      have hsuffix : c :: rest <:+: s := hs ▸ (List.suffix_append before _).isInfix
      rcases lexeme_eq_error hlexeme with ⟨-, rfl⟩ | rfl
      · have hrun : c :: rest.takeWhile continuesRun <+: c :: rest :=
          List.cons_prefix_cons.mpr ⟨rfl, List.takeWhile_prefix _⟩
        exact Or.inl (hrun.isInfix.trans hsuffix)
      · exact Or.inl hsuffix
  | order h => rcases h with rfl | rfl | rfl <;> exact Or.inl List.infix_rfl
  | @item ts its it hspells hgrouped hit hpiece =>
      have htokens := hgrouped.tokens_isInfix hit
      rcases piece_eq_error hpiece with ⟨a, ha, hshown, -⟩ | ⟨a, b, rfl, he⟩
      · exact Or.inl (hshown ▸ hspells.text_isInfix (htokens.mem ha))
      · obtain ⟨g, g', hg, hg', hrange⟩ := hspells.range_isInfix htokens
        exact shows_range hg hg' hrange he

end Shown

section Tags

variable {α : Type} [Quantity α] {key k s inner part a rest : Text} {e : Refusal}

/-- A bound is refused for something in the condition. -/
theorem shows_of_boundAfter (hrest : rest <:+: s)
    (h : (boundAfter key s a rest : Except Fault (Comparison α)) = .error (.refused k e)) :
    Shows s e := by
  have hnumber : trim (rest.dropWhile isOperatorChar) <:+: s :=
    (trim_isInfix _).trans ((List.dropWhile_suffix _).isInfix.trans hrest)
  rcases boundAfter_eq_refused h with rfl | rfl | (rfl | rfl) | rfl
  · exact Or.inl List.infix_rfl
  · exact Or.inl ((List.takeWhile_prefix _).isInfix.trans hrest)
  · exact Or.inl List.infix_rfl
  · exact Or.inl hnumber
  · exact Or.inl hnumber

theorem shows_of_clause
    (h : (clause key s : Except Fault (Clause α)) = .error (.refused k e)) : Shows s e := by
  rcases clause_eq_refused h with ⟨a, rest, haxis, hbound⟩ | ⟨-, hrefused⟩
  · obtain ⟨axis, name, gap, -, -, rfl, -⟩ := axis?_eq_some_iff.mp haxis
    have hrest : rest <:+: name ++ (gap ++ rest) :=
      ((List.suffix_append gap rest).trans (List.suffix_append name _)).isInfix
    exact shows_of_boundAfter hrest hbound
  · exact hrefused.shows

/-- Conditions are refused for something between the parentheses. -/
theorem shows_of_clauses
    (h : (clauses key inner [] (splitAt (.char ';') inner) : Except Fault (List (Clause α))) =
      .error (.refused k e)) : Shows inner e := by
  obtain ⟨before, part, after, cs, hparts, -, hbad⟩ := exists_of_clauses_eq_error h
  have hpart : trim part <:+: inner := by
    have hmem : part ∈ splitAt (.char ';') inner := by simp [hparts]
    have hwithin : part <:+: joined [.char ';'] (splitAt (.char ';') inner) := infix_joined hmem
    rw [joined_splitAt] at hwithin
    exact (trim_isInfix part).trans hwithin
  rcases hbad with hbad | ⟨c, axis, -, -, -, hduplicate⟩
  · unfold readPart at hbad
    split at hbad
    · cases hbad
      exact Or.inl List.infix_rfl
    · exact (shows_of_clause hbad).mono hpart
  · cases hduplicate
    exact Or.inl hpart

end Tags

end Condition

section Reading

variable {α : Type} [Quantity α]

/-- **What a refusal shows.** A tag is refused under its own key, and what is shown as offending
stands in the value as it is shown, unless it is a range of two that do not go together and there is
white space around its dash in the value. -/
theorem Restriction.read_offending {key k value : Text} {cause : Refusal}
    (h : (Restriction.read key (some value) : Except Fault (Restriction α)) =
      .error (.refused k cause)) :
    k = key ∧ (cause.offending <:+: value ∨ ShowsSpaced value cause) := by
  refine ⟨Restriction.key_eq_of_refused h, ?_⟩
  cases hsplit : splitValue (some value) with
  | error e =>
      rw [read_of_not_split hsplit] at h
      cases h
      rcases splitValue_eq_error hsplit with rfl | rfl | rfl | ⟨before, after, rfl, hafter⟩
      · exact Or.inl List.nil_infix
      · exact Or.inl (trim_isInfix value)
      · exact Or.inl (trim_isInfix value)
      · have hcondition : trim after <:+: before ++ .char '@' :: after :=
          (trim_isInfix after).trans
            ((List.suffix_cons _ after).trans (List.suffix_append before _)).isInfix
        rcases hafter with rfl | rfl <;> exact Or.inl hcondition
  | ok p =>
      obtain ⟨text, inner⟩ := p
      rw [read_of_splitValue hsplit] at h
      obtain ⟨before, after, hvalue, -, -, -, hafter, -⟩ := splitValue_eq_ok hsplit
      have hinner : inner <:+: value := by
        have henclosed : inner <:+: trim after := ⟨[.char '('], [.char ')'], hafter.symm⟩
        rw [Option.some.inj hvalue]
        exact henclosed.trans ((trim_isInfix after).trans
          ((List.suffix_cons _ after).trans (List.suffix_append before _)).isInfix)
      exact (shows_of_clauses (map_eq_error.mp h)).mono hinner

/-- A day and a month with a spaced dash between them. -/
def spacedRange : Text := "no @ (Mo - Jan)"

theorem Restriction.read_spacedRange :
    (Restriction.read "access:conditional" (some spacedRange) : Except Fault (Restriction ℚ)) =
      .error (.refused "access:conditional" (.dayMixedWithMonth "Mo-Jan")) := by
  decide +kernel

theorem not_infix_spacedRange :
    ¬ (Refusal.dayMixedWithMonth "Mo-Jan").offending <:+: spacedRange := by
  decide +kernel

theorem Restriction.read_offending_spacedRange :
    (Restriction.read "access:conditional" (some spacedRange) : Except Fault (Restriction ℚ)) =
        .error (.refused "access:conditional" (.dayMixedWithMonth "Mo-Jan")) ∧
      ShowsSpaced spacedRange (.dayMixedWithMonth "Mo-Jan") := by
  refine ⟨Restriction.read_spacedRange, ?_⟩
  have hshown := (Restriction.read_offending Restriction.read_spacedRange).2
  exact hshown.resolve_left not_infix_spacedRange

/-- **Not everything that is shown stands in the value.** -/
theorem Restriction.read_rebuilt :
    ¬ ∀ (key k value : Text) (cause : Refusal),
      (Restriction.read key (some value) : Except Fault (Restriction ℚ)) =
          .error (.refused k cause) →
        k = key ∧ cause.offending <:+: value := by
  intro hall
  obtain ⟨-, hverbatim⟩ := hall _ _ _ _ Restriction.read_spacedRange
  exact not_infix_spacedRange hverbatim

end Reading

end RoadRules
