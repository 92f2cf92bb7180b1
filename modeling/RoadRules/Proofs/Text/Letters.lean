import RoadRules.Proofs.Text.Classes
import RoadRules.Text.Lowercase

set_option autoImplicit false

/-! # Letters that are the same when the case does not count

A letter of the names of dimensions has only itself, its capital, and for the letter i the two
unusual shapes. In particular nothing that parts words is the same as one of them. -/

namespace RoadRules.Text

open CodePoint

variable {c d : CodePoint}

/-- No letter beyond ASCII but the sign of the kelvin has a small letter in ASCII. -/
theorem code_lowerChar (hc : 128 ≤ c.code) (hkelvin : c.code ≠ 8490) :
    128 ≤ (lowerChar c).code := by
  have hruns : ∀ r ∈ lowercaseRuns, (r.1 ≤ 90 ∧ r.2.1 ≤ 90) ∨ (r.1 = 8490 ∧ r.2.1 = 8490) ∨
      (128 ≤ (r.1 : Int) + r.2.2.2 ∧ (r.2.1 : Int) + r.2.2.2 < 0x110000) := by
    decide +kernel
  unfold lowerChar
  rw [if_neg (by omega)]
  split
  · rename_i r hr
    have hrange := List.find?_some hr
    simp only [Bool.and_eq_true, decide_eq_true_eq] at hrange
    rcases hruns r (List.mem_of_find?_eq_some hr) with h | h | h
    · omega
    · omega
    · rw [code_ofCode (by omega)]
      omega
  · exact hc

def dimensionLetters : Text := "weight"

/-- A letter that is the same as one of them is an ASCII letter or an unusual i. -/
theorem isAlpha_of_sameLetter (hd : d ∈ dimensionLetters) (h : sameLetter d c = true) :
    c.isAlpha = true ∨ c = '\u0130' ∨ c = '\u0131' := by
  have hfold : ∀ d ∈ dimensionLetters, sameLetter.fold d = d := by decide
  have hletters : ∀ d ∈ dimensionLetters,
      d.code < 128 ∧ d.isAlpha = true ∧ lowerChar (ofCode 8490) ≠ d := by decide +kernel
  obtain ⟨hcode, halpha, hkelvin⟩ := hletters d hd
  have hsame : sameLetter.fold c = d := by
    rw [← hfold d hd]
    exact (beq_iff_eq.mp h).symm
  unfold sameLetter.fold at hsame
  split at hsame
  · rename_i hi
    rw [Bool.or_eq_true, beq_iff_eq, beq_iff_eq] at hi
    exact Or.inr hi
  · left
    by_cases hc : c.code < 128
    · unfold lowerChar at hsame
      rw [if_pos hc] at hsame
      split at hsame
      · rename_i hupper
        rw [Bool.and_eq_true, decide_eq_true_eq, decide_eq_true_eq] at hupper
        exact isAlpha_iff_code.mpr (Or.inl hupper)
      · rwa [hsame]
    · by_cases hk : c.code = 8490
      · rw [← ofCode_code c, hk] at hsame
        exact absurd hsame hkelvin
      · have hlower := code_lowerChar (by omega : 128 ≤ c.code) hk
        rw [hsame] at hlower
        omega

end RoadRules.Text
