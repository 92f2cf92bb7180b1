import RoadRules.Proofs.Condition.Clauses
import RoadRules.Proofs.Condition.Documented
import RoadRules.Proofs.Condition.Value
import RoadRules.Proofs.Number.Rational

set_option autoImplicit false

/-! # What is accepted and what is documented

The reader drops commas and collects parts in any order, so it accepts conditions that the
documented grammar does not have. `Restriction.read_documented_iff` says which: an accepted
condition is a comparison or a row of marks, and in the second case it is documented just when its
marks are tidy. A condition with a day after a daily range shows that the two differ. -/

namespace RoadRules

open Text Condition

namespace Condition

/-! ## Accepted conditions -/

section Reading

variable {α : Type} [Quantity α] {key : Text}

/-- A condition that is read is a comparison or a schedule. -/
theorem clause_eq_ok {s : Text} {c : Clause α} (h : clause key s = .ok c) :
    IsComparison s ∨ ∃ ws, windows s = .ok ws := by
  obtain ⟨bound, hbound, hclause⟩ := bind_eq_ok.mp h
  cases bound with
  | some b => exact Or.inl (isComparison_of_bound? hbound)
  | none =>
      obtain ⟨ws, hws, -⟩ := map_eq_ok.mp hclause
      exact Or.inr ⟨ws, mapError_eq_ok.mp hws⟩

/-- Conditions that are read together are each read. -/
theorem clauses_eq_ok {inner : Text} {seen parts : List Text} {cs : List (Clause α)}
    (h : clauses key inner seen parts = .ok cs) :
    ∀ part ∈ parts, ∃ c : Clause α, clause key (trim part) = .ok c := by
  induction parts generalizing seen cs with
  | nil => simp
  | cons part rest ih =>
      obtain ⟨c, others, -, hc, -, hothers, -⟩ := clauses_cons_eq_ok_iff.mp h
      exact List.forall_mem_cons.mpr ⟨⟨c, hc⟩, ih hothers⟩

end Reading

/-! ## Accepted values -/

/-- The conditions of the value of a tag: after the first at sign, inside the parentheses, between
semicolons, without the white space around them. -/
def HasConditions (value : Option Text) (conditions : List Text) : Prop :=
  ∃ before after inner, value = some (before ++ .char '@' :: after) ∧ .char '@' ∉ before ∧
    trim after = .char '(' :: (inner ++ [.char ')']) ∧
      conditions = (splitAt (.char ';') inner).map trim

/-- The value of a tag that is split has the conditions that it is split into. -/
theorem hasConditions_of_splitValue {value : Option Text} {text inner : Text}
    (h : splitValue value = .ok (text, inner)) :
    HasConditions value ((splitAt (.char ';') inner).map trim) := by
  obtain ⟨before, after, hvalue, hmark, -, -, hafter, -⟩ := splitValue_eq_ok h
  exact ⟨before, after, inner, hvalue, hmark, hafter, rfl⟩

end Condition

section Accepted

variable {α : Type} [Quantity α] {key : Text} {value : Option Text} {r : Restriction α}

/-- **Accepted values and the documented grammar.** Each condition of a value that is accepted is a
comparison, or a row of months, days and hours with any number of commas anywhere. In the second
case it is documented just when its marks are tidy: when the months stand before the days and the
days before the hours, with one comma between neighbours of one kind and no other comma. -/
theorem Restriction.read_documented_iff (h : Restriction.read key value = .ok r) :
    ∃ conditions, Condition.HasConditions value conditions ∧
      ∀ s ∈ conditions, IsComparison s ∨
        ∃ ms : List Mark, (∃ p, .part p ∈ ms) ∧ Spells s (ms.flatMap Mark.tokens) ∧
          (IsDocumented s ↔ tidy (ms.map Mark.kind?) = true) := by
  obtain ⟨⟨text, inner⟩, hsplit, hread⟩ := bind_eq_ok.mp h
  obtain ⟨cs, hclauses, -⟩ := bind_eq_ok.mp hread
  have hvalue : splitValue value = .ok (text, inner) := by
    cases hcase : splitValue value with
    | error e => rw [hcase] at hsplit; cases hsplit
    | ok p => rw [hcase] at hsplit; cases hsplit; rfl
  refine ⟨_, hasConditions_of_splitValue hvalue, List.forall_mem_map.mpr fun part hpart => ?_⟩
  obtain ⟨c, hc⟩ := clauses_eq_ok hclauses part hpart
  rcases clause_eq_ok hc with hcomparison | ⟨ws, hws⟩
  · exact Or.inl hcomparison
  · obtain ⟨ms, hparts, hspells⟩ := exists_marks_of_windows hws
    exact Or.inr ⟨ms, hparts, hspells, isDocumented_iff_tidy hspells⟩

/-- A value with two lists of hours and a bound. -/
def rushHours : Text := "no @ (Mo-Fr 07:00-09:00,16:00-18:00; weight>7.5)"

theorem Restriction.read_documented_iff_rushHours :
    ∃ conditions, HasConditions (some rushHours) conditions ∧
      ∀ s ∈ conditions, IsComparison s ∨
        ∃ ms : List Mark, (∃ p, .part p ∈ ms) ∧ Spells s (ms.flatMap Mark.tokens) ∧
          (IsDocumented s ↔ tidy (ms.map Mark.kind?) = true) := by
  have hread : (Restriction.read "hgv:conditional" (some rushHours) :
      Except Fault (Restriction ℚ)).isOk = true := by decide +kernel
  obtain ⟨r, hr⟩ := exists_eq_ok hread
  exact Restriction.read_documented_iff hr

end Accepted

/-! ## An undocumented condition -/

/-- A condition that gives Saturday hours of its own. -/
def saturdayHours : Text := "Mo-Fr 07:00-09:00, Sa 10:00-12:00"

/-- A day after a daily range is not documented. -/
theorem not_isDocumented_saturdayHours : ¬ IsDocumented saturdayHours := by
  intro hdocumented
  have hspells := tokens_eq_ok_iff.mp
    (show tokens saturdayHours = .ok [.atom (.word "Mo"), .dash, .atom (.word "Fr"),
      .atom (.time "07:00"), .dash, .atom (.time "09:00"), .comma, .atom (.word "Sa"),
      .atom (.time "10:00"), .dash, .atom (.time "12:00")] by decide +kernel)
  have htidy := hdocumented.tidy hspells
  revert htidy
  decide

theorem hasConditions_saturdayHours :
    HasConditions (some ("no @ (" ++ saturdayHours ++ ")")) [saturdayHours] :=
  ⟨"no ", " (" ++ saturdayHours ++ ")", saturdayHours, by decide +kernel, by decide +kernel,
    by decide +kernel, by decide +kernel⟩

/-- **Not every condition of an accepted value is documented.** -/
theorem Restriction.read_undocumented :
    ¬ ∀ (key : Text) (value : Option Text) (r : Restriction ℚ) (conditions : List Text),
      Restriction.read key value = .ok r → HasConditions value conditions →
        ∀ s ∈ conditions, IsDocumented s := by
  intro hall
  have hread : (Restriction.read "access:conditional"
      (some ("no @ (" ++ saturdayHours ++ ")")) : Except Fault (Restriction ℚ)).isOk = true := by
    decide +kernel
  obtain ⟨r, hr⟩ := exists_eq_ok hread
  exact not_isDocumented_saturdayHours
    (hall _ _ r _ hr hasConditions_saturdayHours saturdayHours List.mem_cons_self)

end RoadRules
