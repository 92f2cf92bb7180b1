import RoadRules.Condition.Reader
import RoadRules.Proofs.Text.Parts

set_option autoImplicit false

/-! # The value of a tag and its conditions

A text in which the first at sign follows something that is not blank, and after which parentheses
enclose a text without parentheses, is told apart into the two, whatever white space stands around
them (`splitValue_enclosed`), and no other text is (`splitValue_eq_ok`). -/

namespace RoadRules.Condition

open Text

variable {value gap gap' inner : Text}

/-- Parentheses keep what they enclose from being trimmed. -/
theorem trim_enclosed (hgap : ∀ c ∈ gap, isBlank c = true) (hgap' : ∀ c ∈ gap', isBlank c = true) :
    trim (gap ++ (.char '(' :: (inner ++ [.char ')'])) ++ gap') =
      .char '(' :: (inner ++ [.char ')']) := by
  rw [trim_around hgap hgap', trim, trimStart_cons (by decide), ← List.cons_append,
    trimEnd_concat (by decide)]

/-- **The value and the conditions of a tag** are told apart. -/
theorem splitValue_enclosed (hvalue : ∃ c ∈ value, isBlank c = false)
    (hat : .char '@' ∉ value) (hgap : ∀ c ∈ gap, isBlank c = true)
    (hgap' : ∀ c ∈ gap', isBlank c = true) (hopen : .char '(' ∉ inner)
    (hclose : .char ')' ∉ inner) :
    splitValue (some (value ++ .char '@' ::
      (gap ++ (.char '(' :: (inner ++ [.char ')'])) ++ gap'))) = .ok (trim value, inner) := by
  obtain ⟨c, hc, hblank⟩ := hvalue
  have hwhole : (trim (value ++ .char '@' ::
      (gap ++ (.char '(' :: (inner ++ [.char ')'])) ++ gap'))).isEmpty = false := by
    simpa using trim_ne_nil (List.mem_append_left _ hc) hblank
  have hsome : (trim value).isEmpty = false := by simpa using trim_ne_nil hc hblank
  have hinner : ((CodePoint.char '(' :: (inner ++ [.char ')'])).drop 1).dropLast = inner := by simp
  have hlast : (CodePoint.char '(' :: (inner ++ [.char ')'])).getLast? = some (.char ')') := by
    rw [← List.cons_append, List.getLast?_concat]
  have hparens : (inner.contains (.char '(') || inner.contains (.char ')')) = false := by
    simpa using ⟨hopen, hclose⟩
  unfold splitValue
  simp only [Option.getD_some, hwhole, splitOnce?_append hat, hsome, trim_enclosed hgap hgap',
    hinner, List.head?_cons, hlast, hparens, Bool.false_eq_true, if_false]
  rfl

/-- A text that begins with an opening and ends with a closing parenthesis encloses the rest. -/
theorem eq_enclosed {s : Text} (hfirst : s.head? = some (.char '('))
    (hlast : s.getLast? = some (.char ')')) :
    s = .char '(' :: ((s.drop 1).dropLast ++ [.char ')']) := by
  cases s with
  | nil => cases hfirst
  | cons c rest =>
      cases hfirst
      rcases List.eq_nil_or_concat rest with rfl | ⟨init, d, rfl⟩
      · cases hlast
      · rw [List.concat_eq_append, ← List.cons_append, List.getLast?_append] at hlast
        cases hlast
        simp

/-- **A value that is told apart** has an at sign, parentheses after it and something in front of
it. -/
theorem splitValue_eq_ok {value : Option Text} {text : Text}
    (h : splitValue value = .ok (text, inner)) :
    ∃ before after, value = some (before ++ .char '@' :: after) ∧ .char '@' ∉ before ∧
      text = trim before ∧ text ≠ [] ∧ trim after = .char '(' :: (inner ++ [.char ')']) ∧
        .char '(' ∉ inner ∧ .char ')' ∉ inner := by
  unfold splitValue at h
  dsimp only at h
  split at h
  · cases h
  · split at h
    · cases h
    · rename_i before after hsplit
      obtain ⟨htext, hmark⟩ := splitOnce?_eq_some hsplit
      have hvalue : value = some (before ++ .char '@' :: after) := by
        cases value with
        | none => simp at htext
        | some s => exact congrArg some htext
      split at h
      · cases h
      · rename_i hne
        split at h
        · cases h
        · rename_i henclosed
          split at h
          · cases h
          · rename_i hparens
            cases h
            have hends : (trim after).head? = some (.char '(') ∧
                (trim after).getLast? = some (.char ')') := by
              simpa using henclosed
            rw [Bool.or_eq_true, not_or, List.contains_iff_mem, List.contains_iff_mem] at hparens
            exact ⟨before, after, hvalue, hmark, rfl, by simpa using hne,
              eq_enclosed hends.1 hends.2, hparens.1, hparens.2⟩

/-- Why a value is not told apart. -/
theorem splitValue_eq_error {e : Refusal} (h : splitValue (some value) = .error e) :
    e = .emptyValue ∨ e = .noAtSign (trim value) ∨ e = .nothingBeforeAt (trim value) ∨
      ∃ before after, value = before ++ .char '@' :: after ∧
        (e = .notEnclosed (trim after) ∨ e = .strayParenthesis (trim after)) := by
  unfold splitValue at h
  dsimp only at h
  split at h
  · cases h
    exact Or.inl rfl
  · split at h
    · cases h
      exact Or.inr (Or.inl rfl)
    · rename_i before after hsplit
      obtain ⟨htext, -⟩ := splitOnce?_eq_some hsplit
      split at h
      · cases h
        exact Or.inr (Or.inr (Or.inl rfl))
      · refine Or.inr (Or.inr (Or.inr ⟨before, after, htext, ?_⟩))
        split at h
        · cases h
          exact Or.inl rfl
        · split at h
          · cases h
            exact Or.inr rfl
          · cases h

end RoadRules.Condition
