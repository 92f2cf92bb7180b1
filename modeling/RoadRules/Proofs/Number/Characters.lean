import Mathlib.Data.List.TakeWhile
import RoadRules.Number.Numeral

set_option autoImplicit false

/-! # The characters of numerals

Of which characters a numeral consists: digits of any script, signs, a point, underscores, the
letters of the exponent and of the words for infinity and the undefined number, and white space at
its ends. Nothing else is read over (`Numeral.forall_mem_of_ofText?`), in particular no unit. -/

namespace RoadRules.Numeral

open Text

/-- The characters besides digits that a numeral of the core grammar has, with small letters. -/
def plainCharacters : Text := "+-.aefinty"

/-- Whether a character may stand in a numeral of the core grammar. -/
def IsPlain (c : CodePoint) : Prop := c.isDigit = true ∨ c.toLower ∈ plainCharacters

variable {s : Text} {c : CodePoint}

theorem mem_dropWhile_or (p : CodePoint → Bool) (hc : c ∈ s) : p c = true ∨ c ∈ s.dropWhile p := by
  rw [← List.takeWhile_append_dropWhile (p := p) (l := s)] at hc
  exact (List.mem_append.mp hc).imp_left List.mem_takeWhile_imp

theorem isPlain_or_mem_splitSign (hc : c ∈ s) : IsPlain c ∨ c ∈ (splitSign s).2 := by
  unfold splitSign
  split
  · rcases List.mem_cons.mp hc with rfl | hc
    · exact Or.inl (Or.inr (by decide))
    · exact Or.inr hc
  · rcases List.mem_cons.mp hc with rfl | hc
    · exact Or.inl (Or.inr (by decide))
    · exact Or.inr hc
  · exact Or.inr hc

/-- An exponent consists of its letter, a sign and digits. -/
theorem isPlain_of_exponent? {k : Int} (h : exponent? s = some k) (hc : c ∈ s) : IsPlain c := by
  cases s with
  | nil => cases hc
  | cons e rest =>
      unfold exponent? at h
      dsimp only at h
      split at h
      · rename_i he
        split at h
        · rename_i hdigits
          rcases List.mem_cons.mp hc with rfl | hc
          · rcases Bool.or_eq_true_iff.mp he with he | he <;>
              exact beq_iff_eq.mp he ▸ Or.inr (by decide)
          · rcases isPlain_or_mem_splitSign hc with hplain | hc
            · exact hplain
            · exact Or.inl (List.all_eq_true.mp hdigits c hc)
        · cases h
      · cases h

theorem isPlain_or_mem_splitFraction (hc : c ∈ s) : IsPlain c ∨ c ∈ (splitFraction s).2 := by
  unfold splitFraction
  split
  · rcases List.mem_cons.mp hc with rfl | hc
    · exact Or.inl (Or.inr (by decide))
    · exact (mem_dropWhile_or _ hc).imp_left Or.inl
  · exact Or.inr hc

theorem isPlain_of_decimal? {negative : Bool} {d : Decimal} (h : decimal? negative s = some d)
    (hc : c ∈ s) : IsPlain c := by
  unfold decimal? at h
  dsimp only at h
  split at h
  · cases h
  · obtain ⟨k, hk, -⟩ := Option.map_eq_some_iff.mp h
    rcases mem_dropWhile_or CodePoint.isDigit hc with hdigit | hc
    · exact Or.inl hdigit
    · rcases isPlain_or_mem_splitFraction hc with hplain | hc
      · exact hplain
      · exact isPlain_of_exponent? hk hc

/-- A word of plain letters, in any case, has plain characters. -/
theorem isPlain_of_word {word : Text} (h : s.map CodePoint.toLower = word)
    (hword : ∀ d ∈ word, d ∈ plainCharacters) (hc : c ∈ s) : IsPlain c :=
  Or.inr (hword _ (h ▸ List.mem_map_of_mem hc))

theorem isPlain_of_ofPlain? {n : Numeral} (h : ofPlain? s = some n) (hc : c ∈ s) : IsPlain c := by
  rcases isPlain_or_mem_splitSign hc with hplain | hc
  · exact hplain
  · unfold ofPlain? at h
    dsimp only at h
    split at h
    · rename_i hword
      rcases Bool.or_eq_true_iff.mp hword with hword | hword
      · exact isPlain_of_word (beq_iff_eq.mp hword) (by decide) hc
      · exact isPlain_of_word (beq_iff_eq.mp hword) (by decide) hc
    · split at h
      · rename_i hword
        exact isPlain_of_word (beq_iff_eq.mp hword) (by decide) hc
      · obtain ⟨d, hd, -⟩ := Option.map_eq_some_iff.mp h
        exact isPlain_of_decimal? hd hc

/-- Only underscores are dropped. -/
theorem mem_of_dropUnderscores {previous : Bool} {s' : Text}
    (h : dropUnderscores previous s = some s') (hc : c ∈ s) : c = '_' ∨ c ∈ s' := by
  induction s generalizing previous s' with
  | nil => cases hc
  | cons d rest ih =>
      unfold dropUnderscores at h
      split at h
      · rename_i hunderscore
        rcases List.mem_cons.mp hc with rfl | hc
        · exact Or.inl (beq_iff_eq.mp hunderscore)
        · split at h
          · cases h
          · split at h
            · exact ih h hc
            · cases h
      · obtain ⟨kept, hkept, rfl⟩ := Option.map_eq_some_iff.mp h
        rcases List.mem_cons.mp hc with rfl | hc
        · exact Or.inr List.mem_cons_self
        · exact (ih hkept hc).imp_right (List.mem_cons_of_mem _)

/-- A digit of some script is a decimal digit, and other characters stay. -/
theorem asciiDigit_eq_or (c : CodePoint) : isDecimalDigit c = true ∨ asciiDigit c = c := by
  unfold asciiDigit isDecimalDigit
  cases digitValue? c with
  | none => exact Or.inr rfl
  | some d => exact Or.inl rfl

theorem mem_trimNumeral_or (hc : c ∈ s) : isNumeralBlank c = true ∨ c ∈ trimNumeral s := by
  rcases mem_dropWhile_or isNumeralBlank hc with hblank | hc
  · exact Or.inl hblank
  · exact (mem_dropWhile_or _ (List.mem_reverse.mpr hc)).imp_right List.mem_reverse.mpr

/-- **The characters of a numeral.** -/
theorem forall_mem_of_ofText? {n : Numeral} (h : ofText? s = some n) :
    ∀ c ∈ s, isNumeralBlank c = true ∨ isDecimalDigit c = true ∨ c = '_' ∨
      c.toLower ∈ plainCharacters := by
  intro c hc
  obtain ⟨plain, hplain, hn⟩ := Option.bind_eq_some_iff.mp h
  rcases mem_trimNumeral_or hc with hblank | hc
  · exact Or.inl hblank
  · rcases asciiDigit_eq_or c with hdigit | hsame
    · exact Or.inr (Or.inl hdigit)
    · have hmem : c ∈ (trimNumeral s).map asciiDigit := hsame ▸ List.mem_map_of_mem hc
      rcases mem_of_dropUnderscores hplain hmem with hunderscore | hmem
      · exact Or.inr (Or.inr (Or.inl hunderscore))
      · rcases isPlain_of_ofPlain? hn hmem with hdigit | hletter
        · exact Or.inr (Or.inl (isDecimalDigit_of_isDigit hdigit))
        · exact Or.inr (Or.inr (Or.inr hletter))

end RoadRules.Numeral
