import RoadRules.Text.Blank
import RoadRules.Text.Digit
import RoadRules.Text.WordChar

set_option autoImplicit false

/-! # Classes of characters that do not overlap

Blanks, decimal digits and ASCII letters have nothing in common, and no blank is a part of a word.
The tables are compared range by range, so nothing here depends on a single character. -/

namespace RoadRules

namespace CodePoint

theorem isAlpha_iff_code {c : CodePoint} :
    c.isAlpha = true ↔ (65 ≤ c.code ∧ c.code ≤ 90) ∨ (97 ≤ c.code ∧ c.code ≤ 122) := by
  cases c with
  | char c =>
      have hranges : c.isAlpha = (decide (c.val ≥ 'A'.val ∧ c.val ≤ 'Z'.val) ||
          (decide (c.val ≥ 'a'.val) && decide (c.val ≤ 'z'.val))) := rfl
      show c.isAlpha = true ↔ _
      rw [hranges, Bool.or_eq_true, Bool.and_eq_true, decide_eq_true_eq, decide_eq_true_eq,
        decide_eq_true_eq]
      exact Iff.rfl
  | surrogate place =>
      refine ⟨fun h => (by cases h), fun h => ?_⟩
      simp only [code] at h
      omega

theorem code_of_isDigit {c : CodePoint} (h : c.isDigit = true) :
    48 ≤ c.code ∧ c.code ≤ 57 := by
  cases c with
  | char c =>
      simp only [isDigit, Char.isDigit, Bool.and_eq_true, decide_eq_true_eq] at h
      exact h
  | surrogate place => cases h

end CodePoint

namespace Text

variable {c : CodePoint}

/-- A character of a class lies in one of its ranges. -/
theorem CharClass.exists_of_contains {k : CharClass} (h : k.contains c = true) :
    ∃ r ∈ k.ranges, r.1 ≤ c.code ∧ c.code ≤ r.2 :=
  (k.containsCode_iff c.code).mp h

/-- Classes without a common range have no common character. -/
theorem CharClass.not_contains_of_apart {k l : CharClass}
    (hapart : ∀ r ∈ k.ranges, ∀ q ∈ l.ranges, r.2 < q.1 ∨ q.2 < r.1)
    (hc : k.contains c = true) : l.contains c = false := by
  refine Bool.eq_false_iff.mpr fun hl => ?_
  obtain ⟨r, hr, hr₁, hr₂⟩ := exists_of_contains hc
  obtain ⟨q, hq, hq₁, hq₂⟩ := exists_of_contains hl
  rcases hapart r hr q hq with h | h <;> omega

/-- A decimal digit is an ASCII digit or lies in one of the runs. -/
theorem code_of_isDecimalDigit (h : isDecimalDigit c = true) :
    (48 ≤ c.code ∧ c.code ≤ 57) ∨
      128 ≤ c.code ∧ ∃ z ∈ zeros, z ≤ c.code ∧ c.code < z + 10 := by
  unfold isDecimalDigit digitValue? at h
  split at h
  · left
    split at h
    · rename_i hdigit
      exact CodePoint.code_of_isDigit hdigit
    · cases h
  · rename_i hcode
    right
    refine ⟨by omega, ?_⟩
    rw [Option.isSome_map, List.find?_isSome] at h
    simpa using h

theorem not_isAlpha_of_isBlank (h : isBlank c = true) : c.isAlpha = false := by
  refine Bool.eq_false_iff.mpr fun halpha => ?_
  have hcode := CodePoint.isAlpha_iff_code.mp halpha
  obtain ⟨r, hr, h₁, h₂⟩ := CharClass.exists_of_contains h
  have hranges : ∀ r ∈ blanks.ranges, r.2 < 65 ∨ 122 < r.1 := by decide
  rcases hranges r hr with h | h <;> omega

theorem not_isBlank_of_isAlpha (h : c.isAlpha = true) : isBlank c = false := by
  refine Bool.eq_false_iff.mpr fun hblank => ?_
  rw [not_isAlpha_of_isBlank hblank] at h
  cases h

theorem not_isDecimalDigit_of_isBlank (h : isBlank c = true) : isDecimalDigit c = false := by
  refine Bool.eq_false_iff.mpr fun hdigit => ?_
  obtain ⟨r, hr, h₁, h₂⟩ := CharClass.exists_of_contains h
  rcases code_of_isDecimalDigit hdigit with hcode | ⟨-, z, hz, hz₁, hz₂⟩
  · have hranges : ∀ r ∈ blanks.ranges, r.2 < 48 ∨ 57 < r.1 := by decide
    rcases hranges r hr with h | h <;> omega
  · have hranges : ∀ z ∈ zeros, ∀ r ∈ blanks.ranges, z + 10 ≤ r.1 ∨ r.2 < z := by
      decide +kernel
    rcases hranges z hz r hr with h | h <;> omega

theorem not_isDecimalDigit_of_isAlpha (h : c.isAlpha = true) : isDecimalDigit c = false := by
  refine Bool.eq_false_iff.mpr fun hdigit => ?_
  have hcode := CodePoint.isAlpha_iff_code.mp h
  rcases code_of_isDecimalDigit hdigit with hcode' | ⟨hcode', -⟩ <;> omega

theorem not_isBlank_of_isDecimalDigit (h : isDecimalDigit c = true) : isBlank c = false := by
  refine Bool.eq_false_iff.mpr fun hblank => ?_
  rw [not_isDecimalDigit_of_isBlank hblank] at h
  cases h

theorem not_isAlpha_of_isDecimalDigit (h : isDecimalDigit c = true) : c.isAlpha = false := by
  refine Bool.eq_false_iff.mpr fun halpha => ?_
  rw [not_isDecimalDigit_of_isAlpha halpha] at h
  cases h

theorem not_isWordChar_of_isBlank (h : isBlank c = true) : isWordChar c = false := by
  unfold isWordChar
  split
  · have hdigit : c.isDigit = false := by
      refine Bool.eq_false_iff.mpr fun hdigit => ?_
      rw [not_isBlank_of_isDecimalDigit (isDecimalDigit_of_isDigit hdigit)] at h
      cases h
    have hmark : (c == '_') = false := by
      rw [beq_eq_false_iff_ne]
      rintro rfl
      revert h
      decide
    rw [not_isAlpha_of_isBlank h, hdigit, hmark]
    rfl
  · exact CharClass.not_contains_of_apart (by decide +kernel) h

end Text

end RoadRules
