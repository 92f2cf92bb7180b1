import RoadRules.Proofs.Review.Repaired
import RoadRules.Proofs.Text.Replaced

set_option autoImplicit false

/-! # Corrections come to an end

A value that is corrected may have another mistake, and a correction may even be the cause of the
next one, as where the first syllable of a misspelling stands twice. The *weight* of a value counts
its characters twice, and adds something for each mistake that takes no characters away when it is
mended. So every correction makes a value lighter, whatever else is wrong with it
(`weight_lt_of_suggest?`), and after a number of corrections that the length of the value bounds
nothing is left to correct (`suggest?_progress`). -/

namespace RoadRules

open Text Condition

namespace Suggestion

/-- Whether a bracket or brace opens in a text. -/
def HasBracket (s : Text) : Prop := .char '[' ∈ s ∨ .char '\x7b' ∈ s

instance (s : Text) : Decidable (HasBracket s) :=
  inferInstanceAs (Decidable (.char '[' ∈ s ∨ .char '\x7b' ∈ s))

/-- Parentheses that are added take four characters more, which count twice. -/
def openCost (s : Text) : Nat := if .char '(' ∈ s then 0 else 10

def bracketCost (s : Text) : Nat := if HasBracket s then 2 else 0

def caseCost (s : Text) : Nat := if recase s = s then 0 else 1

/-- Twice the number of characters, with something for each mistake that does not take characters
away when it is mended. -/
def weight (s : Text) : Nat := 2 * s.length + openCost s + bracketCost s + caseCost s

variable {s t : Text} {c : CodePoint}

theorem openCost_of_mem (h : .char '(' ∈ s) : openCost s = 0 := if_pos h

theorem openCost_of_not_mem (h : .char '(' ∉ s) : openCost s = 10 := if_neg h

theorem openCost_le (h : .char '(' ∈ s → .char '(' ∈ t) : openCost t ≤ openCost s := by
  by_cases hs : .char '(' ∈ s
  · rw [openCost_of_mem (h hs)]
    exact Nat.zero_le _
  · rw [openCost_of_not_mem hs, openCost]
    split <;> omega

theorem bracketCost_le (h : HasBracket t → HasBracket s) : bracketCost t ≤ bracketCost s := by
  unfold bracketCost
  by_cases ht : HasBracket t
  · rw [if_pos ht, if_pos (h ht)]
  · rw [if_neg ht]
    exact Nat.zero_le _

theorem caseCost_le_one (s : Text) : caseCost s ≤ 1 := by
  unfold caseCost
  split <;> omega

theorem weight_le (s : Text) : weight s ≤ 2 * s.length + 13 := by
  have hopen : openCost s ≤ 10 := by unfold openCost; split <;> omega
  have hbracket : bracketCost s ≤ 2 := by unfold bracketCost; split <;> omega
  have hcase := caseCost_le_one s
  unfold weight
  omega

/-! ## Squeezed texts -/

/-- Squeezing and trimming only touch white space. -/
theorem mem_squeezeFrom_iff {blank : Bool} (hc : isBlank c = false) :
    c ∈ squeezeFrom blank s ↔ c ∈ s := by
  induction s generalizing blank with
  | nil => exact Iff.rfl
  | cons d rest ih =>
      by_cases hd : isBlank d = true
      · have hne : c ≠ d := by
          rintro rfl
          rw [hc] at hd
          cases hd
        have hmark : c ∉ Text.ofString (if blank then "" else " ") := by
          cases blank with
          | true => exact List.not_mem_nil
          | false =>
              intro h
              rw [List.mem_singleton.mp h] at hc
              cases hc
        rw [squeezeFrom, if_pos hd, List.mem_append, List.mem_cons, ih]
        simp only [hmark, hne, false_or]
      · rw [squeezeFrom, if_neg hd, List.mem_cons, List.mem_cons, ih]

theorem mem_squeezed_iff (hc : isBlank c = false) : c ∈ trim (squeezeFrom false s) ↔ c ∈ s :=
  ⟨fun h => (mem_squeezeFrom_iff hc).mp ((trim_isInfix _).mem h),
    fun h => mem_trim_of_mem hc ((mem_squeezeFrom_iff hc).mpr h)⟩

/-! ## The weight of a corrected text -/

/-- A text that becomes shorter becomes lighter if it keeps its parentheses and has no new bracket:
what it may gain is a name in a wrong case. -/
theorem weight_lt_of_length_lt (hlength : t.length < s.length)
    (hopen : .char '(' ∈ s → .char '(' ∈ t) (hbracket : HasBracket t → HasBracket s) :
    weight t < weight s := by
  have hopens := openCost_le hopen
  have hbrackets := bracketCost_le hbracket
  have hcase := caseCost_le_one t
  unfold weight
  omega

theorem weight_lt_of_spelling? (h : spelling? s = some t) : weight t < weight s := by
  obtain ⟨m, hm, rfl⟩ := Option.map_eq_some_iff.mp h
  have hmisspellings : ∀ m ∈ misspellings, m.2.length < m.1.length ∧ .char '(' ∉ m.1 ∧
      .char '[' ∉ m.2 ∧ .char '\x7b' ∉ m.2 := by decide
  obtain ⟨hlt, hopen, hbracket, hbrace⟩ := hmisspellings m (List.mem_of_find?_eq_some hm)
  have hne : m.1 ≠ [] := List.length_pos_iff.mp (Nat.zero_lt_of_lt hlt)
  have hreplaced := replaced_replaceAll hne m.2 s
  refine weight_lt_of_length_lt (length_replaceAll_lt hlt (by simpa using List.find?_some hm))
    (hreplaced.mem_of_not_mem_part hopen) fun hmem => ?_
  exact hmem.imp (fun h => (hreplaced.mem_or_mem h).resolve_right hbracket)
    fun h => (hreplaced.mem_or_mem h).resolve_right hbrace

theorem weight_lt_of_case? (h : case? s = some t) : weight t < weight s := by
  unfold case? at h
  split at h
  · rename_i hne
    cases h
    have hcase : caseCost s = 1 := if_neg (by simpa using hne)
    have hcase' : caseCost (recase s) = 0 := if_pos (recase_recase s)
    have hopens := openCost_le (mem_recase_iff (c := .char '(') (s := s) (by decide)).mpr
    have hbrackets : bracketCost (recase s) ≤ bracketCost s :=
      bracketCost_le (Or.imp (mem_recase_iff (by decide)).mp (mem_recase_iff (by decide)).mp)
    have hlength := length_recase s
    unfold weight
    omega
  · cases h

theorem weight_lt_of_brackets? (h : brackets? s = some t) : weight t < weight s := by
  unfold brackets? at h
  split at h
  · rename_i hcontains
    cases h
    have hbracket : HasBracket s := by simpa [HasBracket] using hcontains
    have hopen : .char '(' ∈ s.map parenthesis :=
      List.mem_map.mpr (hbracket.elim (fun h => ⟨_, h, by decide⟩) fun h => ⟨_, h, by decide⟩)
    have hno : ¬HasBracket (s.map parenthesis) := by
      rintro (h | h) <;> obtain ⟨c, -, hc⟩ := List.mem_map.mp h
      · exact (parenthesis_ne c).1 hc
      · exact (parenthesis_ne c).2 hc
    have hcase := caseCost_le_one (s.map parenthesis)
    have hbefore : bracketCost s = 2 := if_pos hbracket
    have hafter : bracketCost (s.map parenthesis) = 0 := if_neg hno
    rw [weight, weight, openCost_of_mem hopen, List.length_map]
    omega
  · cases h

section Parentheses

variable {value condition : Text}

/-- What a text without parentheses is corrected to. -/
def parenthesized (value condition : Text) : Text :=
  trim value ++ " @ (" ++ trim condition ++ ")"

theorem mem_parenthesized : .char '(' ∈ parenthesized value condition := by
  simp [parenthesized, Text.ofString]

/-- Four characters more stand for the at sign, and one for the end. -/
theorem length_parenthesized_le (value condition : Text) :
    (parenthesized value condition).length ≤ (value ++ .char '@' :: condition).length + 4 := by
  have hvalue := length_trim_le value
  have hcondition := length_trim_le condition
  have hfront : (Text.ofString " @ (").length = 4 := by decide
  have hlast : (Text.ofString ")").length = 1 := by decide
  simp only [parenthesized, List.length_append, List.length_cons, hfront, hlast]
  omega

theorem mem_of_mem_parenthesized (hfront : c ∉ Text.ofString " @ (") (hlast : c ∉ Text.ofString ")")
    (h : c ∈ parenthesized value condition) : c ∈ value ++ .char '@' :: condition := by
  simp only [parenthesized, List.mem_append, hfront, hlast, or_false] at h
  rw [List.mem_append, List.mem_cons]
  exact h.imp (trim_isInfix value).mem fun h => Or.inr ((trim_isInfix condition).mem h)

end Parentheses

theorem weight_lt_of_parentheses? (h : parentheses? s = some t) : weight t < weight s := by
  unfold parentheses? at h
  split at h
  · rename_i value condition hsplit
    split at h
    · cases h
    · rename_i hnone
      cases h
      obtain ⟨rfl, -⟩ := splitOnce?_eq_some hsplit
      have hclosed : .char '(' ∉ value ++ .char '@' :: condition := by simpa using hnone
      have hlength := length_parenthesized_le value condition
      have hback : HasBracket (parenthesized value condition) →
          HasBracket (value ++ .char '@' :: condition) :=
        Or.imp (mem_of_mem_parenthesized (by decide) (by decide))
          (mem_of_mem_parenthesized (by decide) (by decide))
      have hbrackets := bracketCost_le hback
      have hcase := caseCost_le_one (parenthesized value condition)
      show weight (parenthesized value condition) < _
      rw [weight, weight, openCost_of_mem mem_parenthesized, openCost_of_not_mem hclosed]
      omega
  · cases h

theorem weight_lt_of_spaces? (h : spaces? s = some t) : weight t < weight s := by
  unfold spaces? at h
  split at h
  · rename_i hdoubled
    cases h
    have hshorter := length_squeezeFrom_lt false hdoubled
    have htrim := length_trim_le (squeezeFrom false s)
    refine weight_lt_of_length_lt (Nat.lt_of_le_of_lt htrim hshorter)
      (mem_squeezed_iff (by decide)).mpr fun hmem => ?_
    exact hmem.imp (mem_squeezed_iff (by decide)).mp (mem_squeezed_iff (by decide)).mp
  · cases h

/-- **Every correction makes a value lighter.** -/
theorem weight_lt_of_suggest? (h : suggest? s = some t) : weight t < weight s := by
  simp only [suggest?, ofText?, Option.orElse_eq_some] at h
  rcases h with h | ⟨-, h | ⟨-, h | ⟨-, h | ⟨-, h⟩⟩⟩⟩
  · exact weight_lt_of_spelling? h
  · exact weight_lt_of_case? h
  · exact weight_lt_of_brackets? h
  · exact weight_lt_of_parentheses? h
  · exact weight_lt_of_spaces? h

end Suggestion

open Suggestion

/-- A value after a number of corrections, if there is something to correct each time. -/
def revised? : Nat → Text → Option Text
  | 0, value => some value
  | n + 1, value => (suggest? value).bind (revised? n)

/-- Corrections can only be made as often as a value becomes lighter. -/
theorem exists_revised (value : Text) :
    ∃ n last, n ≤ weight value ∧ revised? n value = some last ∧ suggest? last = none := by
  induction hw : weight value using Nat.strongRecOn generalizing value with
  | ind w ih =>
      cases hnext : suggest? value with
      | none => exact ⟨0, value, Nat.zero_le _, rfl, hnext⟩
      | some next =>
          have hlt := weight_lt_of_suggest? hnext
          obtain ⟨n, last, hn, hrevised, hlast⟩ := ih (weight next) (hw ▸ hlt) next rfl
          refine ⟨n + 1, last, by omega, ?_, hlast⟩
          rw [revised?, hnext]
          exact hrevised

/-- **Corrections come to an end.** No value is corrected to itself, and at most as many corrections
as twice the length of a value and a few more lead from it to a value where nothing is left to
correct. -/
theorem suggest?_progress (value : Text) :
    suggest? value ≠ some value ∧
      ∃ n last, n ≤ 2 * value.length + 13 ∧ revised? n value = some last ∧
        suggest? last = none := by
  refine ⟨fun h => Nat.lt_irrefl _ (weight_lt_of_suggest? h), ?_⟩
  obtain ⟨n, last, hn, hlast⟩ := exists_revised value
  exact ⟨n, last, Nat.le_trans hn (weight_le value), hlast⟩

example : revised? 2 "maxmaxweight" = some "weight" := by decide

end RoadRules
