import RoadRules.Condition.Bound
import RoadRules.Proofs.Condition.Grammar

set_option autoImplicit false

/-! # What is read as a bound is a comparison

The other direction of reading bounds: a condition that is read as a bound consists of the name of a
dimension, an operator, a number and possibly a unit, with white space between them. The letters of
the name may be capital or small, and the number may be a fraction alone. -/

namespace RoadRules.Condition

open Text

/-- Whether a text is a number: digits with or without a fraction, or a fraction alone. -/
def IsNumber (s : Text) : Prop :=
  (s ≠ [] ∧ ∀ c ∈ s, isDecimalDigit c = true) ∨
    ∃ whole fraction, (∀ c ∈ whole, isDecimalDigit c = true) ∧ fraction ≠ [] ∧
      (∀ c ∈ fraction, isDecimalDigit c = true) ∧ s = whole ++ .char '.' :: fraction

/-- Whether a text holds nothing but white space. -/
def IsGap (s : Text) : Prop := ∀ c ∈ s, isBlank c = true

/-- **Comparisons of a dimension with a number.** -/
inductive IsComparison : Text → Prop
  -- Name, operator, number and unit, with white space after each.
  | intro {axis : Axis} {operator : Operator} {name number unit g₁ g₂ g₃ g₄ : Text} :
      Condition.spells axis.name name = true → IsNumber number →
        (unit = [] ∨ unit? (lower name) = some (unit.map CodePoint.toLower)) →
          IsGap g₁ → IsGap g₂ → IsGap g₃ → IsGap g₄ →
            IsComparison (name ++ (g₁ ++ (Text.ofString operator.symbol ++
              (g₂ ++ (number ++ (g₃ ++ (unit ++ g₄)))))))

section Reading

variable {s rest name : Text}

theorem exists_trimStart (s : Text) : ∃ gap, IsGap gap ∧ s = gap ++ trimStart s :=
  ⟨s.takeWhile isBlank, fun _ hc => List.mem_takeWhile_imp hc,
    (List.takeWhile_append_dropWhile).symm⟩

theorem exists_trimEnd (s : Text) : ∃ gap, IsGap gap ∧ s = trimEnd s ++ gap := by
  obtain ⟨gap, hgap, hs⟩ := exists_trimStart s.reverse
  refine ⟨gap.reverse, fun c hc => hgap c (List.mem_reverse.mp hc), ?_⟩
  have hreverse := congrArg List.reverse hs
  rwa [List.reverse_reverse, List.reverse_append] at hreverse

theorem exists_trim (s : Text) : ∃ g g', IsGap g ∧ IsGap g' ∧ s = g ++ (trim s ++ g') := by
  obtain ⟨g, hg, hs⟩ := exists_trimStart s
  obtain ⟨g', hg', hs'⟩ := exists_trimEnd (trimStart s)
  refine ⟨g, g', hg, hg', ?_⟩
  rw [trim, ← hs']
  exact hs

theorem trim_isInfix (s : Text) : trim s <:+: s := by
  obtain ⟨g, g', -, -, hs⟩ := exists_trim s
  exact ⟨g, g', by rw [List.append_assoc]; exact hs.symm⟩

/-- What is read first is a number, and the rest follows it. -/
theorem leadingNumber?_eq_some {d : Decimal} (h : leadingNumber? s = some (d, rest)) :
    ∃ number, IsNumber number ∧ s = number ++ rest := by
  have hwhole : ∀ c ∈ s.takeWhile isDecimalDigit, isDecimalDigit c = true := fun c hc =>
    List.mem_takeWhile_imp hc
  have hsplit : s = s.takeWhile isDecimalDigit ++ s.dropWhile isDecimalDigit :=
    List.takeWhile_append_dropWhile.symm
  unfold leadingNumber? at h
  dsimp only at h
  split at h
  · rename_i after hafter
    split at h
    · split at h
      · cases h
      · rename_i hne
        cases h
        exact ⟨_, Or.inl ⟨by simpa using hne, hwhole⟩, hsplit⟩
    · rename_i hne
      cases h
      refine ⟨s.takeWhile isDecimalDigit ++ .char '.' :: after.takeWhile isDecimalDigit,
        Or.inr ⟨_, _, hwhole, by simpa using hne, fun c hc => List.mem_takeWhile_imp hc, rfl⟩, ?_⟩
      rw [List.append_assoc, List.cons_append, List.takeWhile_append_dropWhile, ← hafter]
      exact hsplit
  · split at h
    · cases h
    · rename_i hne
      cases h
      exact ⟨_, Or.inl ⟨by simpa using hne, hwhole⟩, hsplit⟩

theorem numberAndUnit?_eq_some {d : Decimal} {unit : Text}
    (h : numberAndUnit? s = some (d, unit)) :
    ∃ number gap, IsNumber number ∧ IsGap gap ∧ (∀ c ∈ unit, c.isAlpha = true) ∧
      s = number ++ (gap ++ unit) := by
  unfold numberAndUnit? at h
  obtain ⟨⟨d', rest⟩, hnumber, hunit⟩ := Option.bind_eq_some_iff.mp h
  obtain ⟨number, hisNumber, rfl⟩ := leadingNumber?_eq_some hnumber
  obtain ⟨gap, hgap, hrest⟩ := exists_trimStart rest
  dsimp only at hunit
  split at hunit
  · rename_i hletters
    cases hunit
    exact ⟨number, gap, hisNumber, hgap, List.all_eq_true.mp hletters, by rw [← hrest]⟩
  · cases hunit

theorem Operator.symbol_of_ofSymbol? {o : Operator} (h : Operator.ofSymbol? s = some o) :
    s = Text.ofString o.symbol := by
  have hfound := List.find?_some h
  exact (beq_iff_eq.mp hfound).symm

/-- What is read as an operator, a number and a unit is written so, with white space between
them. -/
theorem exists_measure {o : Operator} {d : Decimal} {unit : Text}
    (ho : Operator.ofSymbol? (rest.takeWhile isOperatorChar) = some o)
    (hunit : numberAndUnit? (trim (rest.dropWhile isOperatorChar)) = some (d, unit)) :
    ∃ number g₂ g₃ g₄, IsNumber number ∧ (∀ c ∈ unit, c.isAlpha = true) ∧
      IsGap g₂ ∧ IsGap g₃ ∧ IsGap g₄ ∧
        rest = Text.ofString o.symbol ++ (g₂ ++ (number ++ (g₃ ++ (unit ++ g₄)))) := by
  obtain ⟨number, g₃, hnumber, hg₃, hletters, htext⟩ := numberAndUnit?_eq_some hunit
  obtain ⟨g₂, g₄, hg₂, hg₄, hafter⟩ := exists_trim (rest.dropWhile isOperatorChar)
  refine ⟨number, g₂, g₃, g₄, hnumber, hletters, hg₂, hg₃, hg₄, ?_⟩
  calc
    rest = rest.takeWhile isOperatorChar ++ rest.dropWhile isOperatorChar :=
      List.takeWhile_append_dropWhile.symm
    _ = Text.ofString o.symbol ++ (g₂ ++ (number ++ (g₃ ++ (unit ++ g₄)))) := by
      rw [hafter, htext, Operator.symbol_of_ofSymbol? ho]
      simp [List.append_assoc]

variable {α : Type} [Quantity α]

/-- After the name of a dimension a bound has an operator, a number and possibly a unit. -/
theorem isComparison_of_boundAfter {key segment : Text} {axis : Axis} {c : Comparison α}
    {g : Text} (hname : Condition.spells axis.name name = true) (hg : IsGap g)
    (h : boundAfter key segment (lower name) rest = .ok c) :
    IsComparison (name ++ (g ++ rest)) := by
  unfold boundAfter at h
  simp only at h
  split at h
  · cases h
  · split at h
    · cases h
    · rename_i o ho
      split at h
      · cases h
      · rename_i d unit hunit
        obtain ⟨number, g₂, g₃, g₄, hnumber, -, hg₂, hg₃, hg₄, hrest⟩ := exists_measure ho hunit
        rw [hrest]
        refine .intro hname hnumber ?_ hg hg₂ hg₃ hg₄
        split at h
        · rename_i hempty
          exact Or.inl (List.isEmpty_iff.mp hempty)
        · split at h
          · cases h
          · rename_i expected hexpected
            split at h
            · rename_i heq
              exact Or.inr (heq ▸ hexpected)
            · cases h

/-- **What is read as a bound is a comparison.** -/
theorem isComparison_of_bound? {key : Text} {axis : Text} {c : Comparison α}
    (h : bound? key s = .ok (some (axis, c))) : IsComparison s := by
  unfold bound? at h
  split at h
  · cases h
  · rename_i axis' rest haxis
    cases hbound : (boundAfter key s axis' rest : Except Fault (Comparison α)) with
    | error f => rw [hbound] at h; cases h
    | ok c' =>
        unfold axis? at haxis
        simp only at haxis
        split at haxis
        · rename_i hspells
          split at haxis
          · cases haxis
          · cases haxis
            obtain ⟨g, hg, hdrop⟩ := exists_trimStart (s.drop 6)
            have hname : ∃ axis : Axis, Condition.spells axis.name (s.take 6) = true := by
              rw [Bool.and_eq_true, Bool.or_eq_true] at hspells
              rcases hspells.1 with h | h
              · exact ⟨.weight, h⟩
              · exact ⟨.height, h⟩
            obtain ⟨axis, hname⟩ := hname
            have hcomparison := isComparison_of_boundAfter hname hg hbound
            rwa [← hdrop, List.take_append_drop] at hcomparison
        · cases haxis

end Reading

end RoadRules.Condition
