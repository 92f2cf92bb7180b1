import RoadRules.Proofs.Condition.Schedule
import RoadRules.Proofs.Text.Letters

set_option autoImplicit false

/-! # Bounds are read with their meaning

A condition bounds a dimension if it begins with the name of the dimension. A schedule never does,
since its first word is too short for that and the letters of a name are not parted; and a bound is
read with its operator and its number, whatever white space stands in it. -/

namespace RoadRules.Condition

open Text Calendar

/-! ## Schedules bound nothing -/

section Names

variable {s name : Text} {c : CodePoint}

/-- What is spelled like a name has a letter of the name in every place. -/
theorem exists_sameLetter_of_spells (h : Condition.spells name s = true) (hc : c ∈ s) :
    ∃ d ∈ name, sameLetter d c = true := by
  simp only [Condition.spells, Bool.and_eq_true, beq_iff_eq, List.all_eq_true] at h
  obtain ⟨hlength, hall⟩ := h
  obtain ⟨i, hi, rfl⟩ := List.getElem_of_mem hc
  have hmem : (name[i], s[i]) ∈ name.zip s :=
    List.mem_iff_getElem.mpr ⟨i, by simp [hlength, hi], by simp⟩
  exact ⟨name[i], List.getElem_mem _, hall _ hmem⟩

/-- Whether a character parts the letters of a name. -/
def Parts (c : CodePoint) : Prop := c.isAlpha = false ∧ c ≠ '\u0130' ∧ c ≠ '\u0131'

instance : Decidable (Parts c) :=
  inferInstanceAs (Decidable (c.isAlpha = false ∧ c ≠ '\u0130' ∧ c ≠ '\u0131'))

/-- What is spelled like the name of a dimension has six letters and nothing that parts them. -/
theorem not_spells_of_parts (h : s.length < 6 ∨ ∃ c ∈ s, Parts c) (axis : Axis) :
    Condition.spells axis.name s = false := by
  refine Bool.eq_false_iff.mpr fun hspells => ?_
  rcases h with h | ⟨c, hc, halpha, hdotted, hdotless⟩
  · simp only [Condition.spells, Bool.and_eq_true, beq_iff_eq] at hspells
    have hlength : axis.name.length = 6 := by cases axis <;> rfl
    omega
  · obtain ⟨d, hd, hsame⟩ := exists_sameLetter_of_spells hspells hc
    have hletter : d ∈ dimensionLetters := by
      have hall : ∀ d ∈ axis.name, d ∈ dimensionLetters := by cases axis <;> decide
      exact hall d hd
    rcases isAlpha_of_sameLetter hletter hsame with h | h | h
    · rw [halpha] at h
      cases h
    · exact hdotted h
    · exact hdotless h

theorem axis?_eq_none (h : s.length < 6 ∨ ∃ c ∈ s.take 6, Parts c) : axis? s = none := by
  have htake : (s.take 6).length < 6 ∨ ∃ c ∈ s.take 6, Parts c := by
    refine h.imp_left fun hlength => ?_
    rw [List.length_take]
    omega
  have hweight := not_spells_of_parts htake .weight
  have hheight := not_spells_of_parts htake .height
  simp only [Axis.name] at hweight hheight
  simp [axis?, hweight, hheight]

theorem parts_of_isBlank (h : isBlank c = true) : Parts c := by
  refine ⟨not_isAlpha_of_isBlank h, ?_, ?_⟩ <;>
    · rintro rfl
      revert h
      decide

theorem parts_of_isDecimalDigit (h : isDecimalDigit c = true) : Parts c := by
  refine ⟨not_isAlpha_of_isDecimalDigit h, ?_, ?_⟩ <;>
    · rintro rfl
      revert h
      decide

/-- A text with tokens, of which the first is no word as long as the name of a dimension, bounds no
dimension. -/
theorem Spells.axis?_eq_none {t : Token} {ts : List Token} (h : Spells s (t :: ts))
    (hshort : ∀ w, t = .atom (.word w) → w.length < 6) : axis? s = none := by
  cases h with
  | blank hblank _ =>
      exact Condition.axis?_eq_none (Or.inr ⟨_, by simp, parts_of_isBlank hblank⟩)
  | @token _ rest _ hwritten hends hrest =>
      match t, hwritten, hends, hshort with
      | .dash, _, _, _ =>
          exact Condition.axis?_eq_none (Or.inr ⟨.char '-', List.mem_cons_self, by decide⟩)
      | .comma, _, _, _ =>
          exact Condition.axis?_eq_none (Or.inr ⟨.char ',', List.mem_cons_self, by decide⟩)
      | .atom (.time time), hwritten, _, _ =>
          obtain ⟨a, tail, rfl, ha⟩ := IsTime.exists_cons hwritten
          exact Condition.axis?_eq_none
            (Or.inr ⟨a, by simp [Token.text, Atom.text], parts_of_isDecimalDigit ha⟩)
      | .atom (.word w), _, hends, hshort =>
          have hw : w.length < 6 := hshort w rfl
          apply Condition.axis?_eq_none
          cases rest with
          | nil => exact Or.inl (by simpa [Token.text, Atom.text] using hw)
          | cons c rest =>
              -- the character after the word is among the first six, and it is no letter
              right
              refine ⟨c, ?_, ?_⟩
              · simp only [Token.text, Atom.text]
                rw [List.take_append, List.mem_append]
                right
                obtain ⟨n, hn⟩ : ∃ n, 6 - w.length = n + 1 := ⟨5 - w.length, by omega⟩
                rw [hn, List.take_succ_cons]
                exact List.mem_cons_self
              · have halpha : c.isAlpha = false := hends c rfl
                rcases hrest.mem List.mem_cons_self with h | h | h | rfl | rfl | rfl
                · exact parts_of_isBlank h
                · exact parts_of_isDecimalDigit h
                · rw [halpha] at h
                  cases h
                all_goals decide

end Names

theorem Span.isShort_of_mem {ι : Type} [NamedCycle ι] [WordNames ι] {x : Span ι} {w : Text}
    (h : .atom (.word w) ∈ x.tokens) : w.length < 6 := by
  cases x with
  | one a =>
      cases List.mem_singleton.mp h
      exact WordNames.isShort a
  | range a before after b =>
      simp only [tokens, nameToken, List.mem_cons, List.not_mem_nil, or_false, Token.atom.injEq,
        Atom.word.injEq, reduceCtorEq, false_or] at h
      rcases h with rfl | rfl
      · exact WordNames.isShort a
      · exact WordNames.isShort b

namespace Schedule

theorem mem_partTokens {τ : Type} {itemTokens : τ → List Token} {part : Option (Series τ)}
    {a : Atom} (h : .atom a ∈ partTokens itemTokens part) : ∃ x, .atom a ∈ itemTokens x := by
  cases part with
  | none => cases h
  | some series =>
      simp only [partTokens, Series.tokens, List.mem_append, List.mem_flatMap, List.mem_cons,
        reduceCtorEq, false_or] at h
      rcases h with h | ⟨o, -, h⟩
      · exact ⟨_, h⟩
      · exact ⟨_, h⟩

/-- The words of a schedule are shorter than the name of a dimension. -/
theorem isShort_of_mem (s : Schedule) {w : Text} (h : .atom (.word w) ∈ s.tokens) :
    w.length < 6 := by
  rcases List.mem_append.mp h with h | h
  · obtain ⟨x, hx⟩ := mem_partTokens h
    exact Span.isShort_of_mem hx
  · rcases List.mem_append.mp h with h | h
    · obtain ⟨x, hx⟩ := mem_partTokens h
      exact Span.isShort_of_mem hx
    · obtain ⟨r, hr⟩ := mem_partTokens h
      simp [ClockRange.tokens] at hr

theorem tokens_ne_nil (s : Schedule) : s.tokens ≠ [] := by
  intro hnil
  have hgrouped := s.grouped
  rw [hnil] at hgrouped
  generalize hitems : s.items = its at hgrouped
  cases hgrouped
  exact s.items_ne_nil hitems

/-- **A schedule bounds no dimension.** -/
theorem axis?_trim (s : Schedule) : axis? (trim s.text) = none := by
  have hspells := s.spells.trim
  have hshort : ∀ w, .atom (.word w) ∈ s.tokens → w.length < 6 := fun w => s.isShort_of_mem
  cases htokens : s.tokens with
  | nil => exact absurd htokens s.tokens_ne_nil
  | cons t ts =>
      rw [htokens] at hspells hshort
      exact hspells.axis?_eq_none fun w hw => hshort w (hw ▸ List.mem_cons_self)

end Schedule

/-! ## Numbers and units -/

namespace Bound

variable (b : Bound)

/-- What a bound has after its operator and the white space there. -/
def numberText : Text := b.whole.text ++ (b.fractionText ++ b.unitText)

/-- Neither a digit nor a point begins what follows the number. -/
theorem head?_unitText {c : CodePoint} (h : b.unitText.head? = some c) :
    isDecimalDigit c = false ∧ c ≠ '.' := by
  unfold unitText at h
  split at h
  · cases h
  · rename_i gap _
    cases hgap : gap.text with
    | nil =>
        rw [hgap] at h
        cases h
        cases b.axis <;> decide
    | cons d rest =>
        have hblank : isBlank d = true := gap.blank d (hgap ▸ List.mem_cons_self)
        rw [hgap] at h
        cases h
        refine ⟨not_isDecimalDigit_of_isBlank hblank, ?_⟩
        rintro rfl
        revert hblank
        decide

theorem leadingNumber?_numberText :
    leadingNumber? b.numberText = some (b.number, b.unitText) := by
  have hafter : ∀ c, b.unitText.head? = some c → isDecimalDigit c = false := fun c hc =>
    (b.head?_unitText hc).1
  have hwhole : b.whole.text.isEmpty = false := by simpa using b.whole.ne_nil
  unfold leadingNumber? numberText fractionText number
  cases hfraction : b.fraction with
  | none =>
      simp only [List.nil_append, takeWhile_append_of_head b.whole.digits hafter,
        dropWhile_append_of_head b.whole.digits hafter, hwhole]
      split
      · rename_i rest heq
        exact absurd rfl (b.head?_unitText (congrArg List.head? heq)).2
      · rfl
  | some f =>
      have hpoint : ∀ c, (CodePoint.char '.' :: (f.text ++ b.unitText)).head? = some c →
          isDecimalDigit c = false := by
        rintro c ⟨⟩
        decide
      have hfractionText : f.text.isEmpty = false := by simpa using f.ne_nil
      simp only [List.cons_append, takeWhile_append_of_head b.whole.digits hpoint,
        dropWhile_append_of_head b.whole.digits hpoint,
        takeWhile_append_of_head f.digits hafter, dropWhile_append_of_head f.digits hafter,
        hfractionText]
      rfl

def unitWord : Text :=
  match b.unit with
  | none => []
  | some _ => [b.axis.unit]

theorem trimStart_unitText : trimStart b.unitText = b.unitWord := by
  unfold unitText unitWord
  cases b.unit with
  | none => rfl
  | some gap =>
      show trimStart (gap.text ++ [b.axis.unit]) = [b.axis.unit]
      rw [trimStart_append gap.blank]
      cases b.axis <;> decide

theorem numberAndUnit?_numberText :
    numberAndUnit? b.numberText = some (b.number, b.unitWord) := by
  have halpha : b.unitWord.all CodePoint.isAlpha = true := by
    unfold unitWord
    split
    · rfl
    · cases b.axis <;> decide
  unfold numberAndUnit?
  rw [leadingNumber?_numberText]
  show (if (trimStart b.unitText).all CodePoint.isAlpha = true then
    some (b.number, trimStart b.unitText) else none) = _
  rw [trimStart_unitText, if_pos halpha]

/-! ## The edges of a bound -/

theorem numberText_ne_nil : b.numberText ≠ [] := by
  simp [numberText, b.whole.ne_nil]

/-- The number of a bound begins with a digit. -/
theorem head?_numberText {c : CodePoint} {rest : Text} (h : b.numberText = c :: rest) :
    isDecimalDigit c = true := by
  cases hwhole : b.whole.text with
  | nil => exact absurd hwhole b.whole.ne_nil
  | cons d tail =>
      have hd : isDecimalDigit d = true := b.whole.digits d (hwhole ▸ List.mem_cons_self)
      rw [numberText, hwhole] at h
      cases h
      exact hd

/-- There is nothing to trim at the end of a number with its unit. -/
theorem trimEnd_numberText : trimEnd b.numberText = b.numberText := by
  have hdigits : ∀ d : Digits, trimEnd d.text = d.text := fun d =>
    trimEnd_of_forall fun c hc => not_isBlank_of_isDecimalDigit (d.digits c hc)
  unfold numberText unitText
  cases b.unit with
  | some gap =>
      have hunit : isBlank b.axis.unit = false := by cases b.axis <;> decide
      simpa [List.append_assoc] using
        trimEnd_concat (s := b.whole.text ++ (b.fractionText ++ gap.text)) hunit
  | none =>
      unfold fractionText
      cases b.fraction with
      | some f =>
          have htext : b.whole.text ++ (.char '.' :: f.text ++ []) =
              b.whole.text ++ [CodePoint.char '.'] ++ f.text := by simp
          show trimEnd (b.whole.text ++ (.char '.' :: f.text ++ [])) = _
          rw [htext]
          exact trimEnd_append_right f.ne_nil (hdigits f)
      | none => simpa using hdigits b.whole

theorem symbol_cases : ∃ c rest, Text.ofString b.operator.symbol = c :: rest ∧
    isOperatorChar c = true ∧ ∀ d ∈ rest, isOperatorChar d = true := by
  cases b.operator with
  | greater => exact ⟨.char '>', [], rfl, by decide, by decide⟩
  | atLeast => exact ⟨.char '>', [.char '='], rfl, by decide, by decide⟩
  | less => exact ⟨.char '<', [], rfl, by decide, by decide⟩
  | atMost => exact ⟨.char '<', [.char '='], rfl, by decide, by decide⟩

def afterName : Text :=
  b.beforeOperator.text ++ (Text.ofString b.operator.symbol ++
    (b.beforeNumber.text ++ b.numberText))

theorem text_eq : b.text = b.axis.name ++ b.afterName := rfl

theorem trim_text : trim b.text = b.text := by
  have hfirst : trimStart b.text = b.text := by
    unfold text
    cases b.axis <;> exact trimStart_cons (by decide)
  have hlast : trimEnd b.text = b.text := by
    have h := trimEnd_append_right (s := b.axis.name ++ (b.beforeOperator.text ++
      (Text.ofString b.operator.symbol ++ b.beforeNumber.text))) b.numberText_ne_nil
      b.trimEnd_numberText
    simpa [text, numberText, List.append_assoc] using h
  rw [trim, hfirst, hlast]

/-! ## Reading a bound -/

/-- A word ends where white space or an operator begins. -/
theorem wordEnds_afterName : wordEnds b.afterName = true := by
  obtain ⟨c, rest, hsymbol, -, -⟩ := b.symbol_cases
  have hc : isWordChar c = false := by
    revert hsymbol
    cases b.operator <;> rintro ⟨⟩ <;> decide
  unfold afterName
  rw [hsymbol]
  cases hgap : b.beforeOperator.text with
  | nil => simp [wordEnds, hc]
  | cons d tail =>
      have hblank := b.beforeOperator.blank d (hgap ▸ List.mem_cons_self)
      simp [wordEnds, not_isWordChar_of_isBlank hblank]

theorem trimStart_afterName : trimStart b.afterName =
    Text.ofString b.operator.symbol ++ (b.beforeNumber.text ++ b.numberText) := by
  unfold afterName
  rw [trimStart_append b.beforeOperator.blank]
  cases b.operator <;> exact trimStart_cons (by decide)

theorem oneLine : (Text.ofString b.operator.symbol ++
    (b.beforeNumber.text ++ b.numberText)).contains (.char '\n') = false := by
  have hsymbol : .char '\n' ∉ Text.ofString b.operator.symbol := by
    cases b.operator <;> decide
  have hdigits : ∀ d : Digits, .char '\n' ∉ d.text := fun d h => by
    have hdigit := d.digits _ h
    revert hdigit
    decide
  have hfraction : .char '\n' ∉ b.fractionText := by
    unfold fractionText
    split
    · simp
    · simpa using hdigits _
  have hunit : .char '\n' ∉ b.unitText := by
    unfold unitText
    split
    · simp
    · rename_i gap _
      have haxis : CodePoint.char '\n' ≠ b.axis.unit := by cases b.axis <;> decide
      simpa [haxis] using gap.oneLine
  simp [numberText, hsymbol, b.beforeNumber.oneLine, hdigits b.whole, hfraction, hunit]

/-- A bound begins with the name of its dimension. -/
theorem axis?_text : axis? b.text = some (b.axis.name,
    Text.ofString b.operator.symbol ++ (b.beforeNumber.text ++ b.numberText)) := by
  have hlength : b.axis.name.length = 6 := by cases b.axis <;> rfl
  have htake : b.text.take 6 = b.axis.name := by
    rw [text_eq, ← hlength, List.take_left]
  have hdrop : b.text.drop 6 = b.afterName := by
    rw [text_eq, ← hlength, List.drop_left]
  have hspells : (Condition.spells weightAxis b.axis.name ||
      Condition.spells heightAxis b.axis.name) = true := by
    cases b.axis <;> decide
  have hlower : lower b.axis.name = b.axis.name := by cases b.axis <;> decide
  unfold axis?
  simp only [htake, hdrop, hspells, b.wordEnds_afterName, trimStart_afterName, oneLine, hlower]
  rfl

theorem head?_afterOperator {c : CodePoint}
    (h : (b.beforeNumber.text ++ b.numberText).head? = some c) : isOperatorChar c = false := by
  have hmark : isBlank c = true ∨ isDecimalDigit c = true := by
    cases hgap : b.beforeNumber.text with
    | nil =>
        cases hnumber : b.numberText with
        | nil => exact absurd hnumber b.numberText_ne_nil
        | cons d rest =>
            rw [hgap, hnumber] at h
            obtain rfl : d = c := Option.some.inj h
            exact Or.inr (b.head?_numberText hnumber)
    | cons d rest =>
        have hblank : isBlank d = true := b.beforeNumber.blank d (hgap ▸ List.mem_cons_self)
        rw [hgap] at h
        obtain rfl : d = c := Option.some.inj h
        exact Or.inl hblank
  refine Bool.eq_false_iff.mpr fun hoperator => ?_
  simp only [isOperatorChar, Bool.or_eq_true, beq_iff_eq] at hoperator
  rcases hoperator with ((rfl | rfl) | rfl) | rfl <;> revert hmark <;> decide

theorem trim_afterOperator : trim (b.beforeNumber.text ++ b.numberText) = b.numberText := by
  have hfirst : trimStart b.numberText = b.numberText := by
    cases hnumber : b.numberText with
    | nil => rfl
    | cons d rest =>
        exact trimStart_cons (not_isBlank_of_isDecimalDigit (b.head?_numberText hnumber))
  rw [trim, trimStart_append b.beforeNumber.blank, hfirst, trimEnd_numberText]

variable {α : Type} [Quantity α]

/-- **A bound is read with its operator and its number.** -/
theorem bound?_text (key : Text) :
    bound? key b.text = .ok (some (b.axis.name, (b.comparison : Comparison α))) := by
  obtain ⟨c, rest, hsymbol, hc, hrest⟩ := b.symbol_cases
  have hoperator : ∀ d ∈ Text.ofString b.operator.symbol, isOperatorChar d = true := by
    rw [hsymbol]
    exact List.forall_mem_cons.mpr ⟨hc, hrest⟩
  have htake := takeWhile_append_of_head hoperator fun d hd => b.head?_afterOperator hd
  have hdrop := dropWhile_append_of_head hoperator fun d hd => b.head?_afterOperator hd
  have hempty : (Text.ofString b.operator.symbol).isEmpty = false := by
    rw [hsymbol]
    rfl
  have hafter : boundAfter key b.text b.axis.name (Text.ofString b.operator.symbol ++
      (b.beforeNumber.text ++ b.numberText)) = .ok (b.comparison : Comparison α) := by
    unfold boundAfter
    simp only [htake, hdrop, hempty, Operator.ofSymbol?_symbol, b.trim_afterOperator,
      b.numberAndUnit?_numberText, Bool.false_eq_true, if_false]
    unfold unitWord comparison
    cases b.unit with
    | none => rfl
    | some gap => cases b.axis <;> rfl
  rw [bound?_of_axis?_eq_some b.axis?_text, hafter]
  rfl

end Bound

end RoadRules.Condition
