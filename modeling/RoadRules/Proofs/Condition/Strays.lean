import RoadRules.Proofs.Condition.Clauses
import RoadRules.Proofs.Condition.Names

set_option autoImplicit false

/-! # Where reading a tag stops

A tag is read or refused, with one exception. A comparison whose name has an unusual i is on an axis
that has no unit, and a unit after its number is not refused but stops the reading altogether. Such
a comparison is a stray, and it is what the reader stops at if no condition before it is refused
(`Restriction.read_eq_unknownAxis_iff`). -/

namespace RoadRules

open Text Condition

namespace Condition

/-! ## Numbers with units -/

section Numbers

variable {number gap unit rest : Text}

theorem IsNumber.exists_leadingNumber? (h : IsNumber number)
    (hrest : ∀ c, rest.head? = some c → isDecimalDigit c = false ∧ c ≠ '.') :
    ∃ d, leadingNumber? (number ++ rest) = some (d, rest) := by
  have hends : ∀ c, rest.head? = some c → isDecimalDigit c = false := fun c hc => (hrest c hc).1
  rcases h with ⟨hne, hdigits⟩ | ⟨whole, fraction, hwhole, hne, hfraction, rfl⟩
  · have hempty : number.isEmpty = false := by simpa using hne
    unfold leadingNumber?
    simp only [takeWhile_append_of_head hdigits hends, dropWhile_append_of_head hdigits hends,
      hempty]
    split
    · exact absurd rfl (hrest _ rfl).2
    · exact ⟨_, rfl⟩
  · have hpoint : ∀ c, (CodePoint.char '.' :: (fraction ++ rest)).head? = some c →
        isDecimalDigit c = false := by
      rintro c ⟨⟩
      decide
    have hempty : fraction.isEmpty = false := by simpa using hne
    unfold leadingNumber?
    simp only [List.append_assoc, List.cons_append, takeWhile_append_of_head hwhole hpoint,
      dropWhile_append_of_head hwhole hpoint, takeWhile_append_of_head hfraction hends,
      dropWhile_append_of_head hfraction hends, hempty]
    exact ⟨_, rfl⟩

/-- A number and a unit are told apart. -/
theorem IsNumber.exists_numberAndUnit? (h : IsNumber number) (hgap : IsGap gap)
    (hunit : ∀ c ∈ unit, c.isAlpha = true) :
    ∃ d, numberAndUnit? (number ++ (gap ++ unit)) = some (d, unit) := by
  have hhead : ∀ c, (gap ++ unit).head? = some c → isDecimalDigit c = false ∧ c ≠ '.' := by
    intro c hc
    have hmem : c ∈ gap ∨ c ∈ unit := List.mem_append.mp (List.mem_of_head? hc)
    have hmark : isBlank c = true ∨ c.isAlpha = true := hmem.imp (hgap c) (hunit c)
    refine ⟨hmark.elim not_isDecimalDigit_of_isBlank not_isDecimalDigit_of_isAlpha, ?_⟩
    rintro rfl
    revert hmark
    decide
  have hstart : trimStart (gap ++ unit) = unit := by
    rw [trimStart_append hgap]
    cases unit with
    | nil => rfl
    | cons c rest => exact trimStart_cons (not_isBlank_of_isAlpha (hunit c List.mem_cons_self))
  obtain ⟨d, hd⟩ := h.exists_leadingNumber? hhead
  refine ⟨d, ?_⟩
  unfold numberAndUnit?
  rw [hd]
  show (if (trimStart (gap ++ unit)).all CodePoint.isAlpha = true then
    some (d, trimStart (gap ++ unit)) else none) = _
  rw [hstart, if_pos (List.all_eq_true.mpr hunit)]

/-- A number begins with a digit or a point. -/
theorem IsNumber.exists_cons (h : IsNumber number) :
    ∃ c rest, number = c :: rest ∧ (isDecimalDigit c = true ∨ c = '.') := by
  rcases h with ⟨hne, hdigits⟩ | ⟨whole, fraction, hwhole, -, -, rfl⟩
  · obtain ⟨c, rest, rfl⟩ := List.exists_cons_of_ne_nil hne
    exact ⟨c, rest, rfl, Or.inl (hdigits c List.mem_cons_self)⟩
  · cases whole with
    | nil => exact ⟨_, _, rfl, Or.inr rfl⟩
    | cons c rest => exact ⟨c, _, rfl, Or.inl (hwhole c List.mem_cons_self)⟩

/-- Of the white space around a number and a unit, only that between them stays. -/
theorem IsNumber.trim_eq {before after : Text} (h : IsNumber number) (hne : unit ≠ [])
    (hunit : ∀ c ∈ unit, c.isAlpha = true) (hbefore : IsGap before) (hafter : IsGap after) :
    trim (before ++ (number ++ (gap ++ unit)) ++ after) = number ++ (gap ++ unit) := by
  have hlast : trimEnd unit = unit :=
    trimEnd_of_forall fun c hc => not_isBlank_of_isAlpha (hunit c hc)
  have hfirst : trimStart (number ++ (gap ++ unit)) = number ++ (gap ++ unit) := by
    obtain ⟨c, rest, rfl, hc⟩ := h.exists_cons
    refine trimStart_cons ?_
    rcases hc with hdigit | rfl
    · exact not_isBlank_of_isDecimalDigit hdigit
    · decide
  rw [trim_around hbefore hafter, trim, hfirst, ← List.append_assoc, trimEnd_append_right hne hlast]

end Numbers

/-! ## Bounds with units -/

/-- What a bound with a unit has after the name: an operator, a number and some letters, with white
space after each. -/
inductive HasUnit : Text → Prop
  | intro {operator : Operator} {number unit g₂ g₃ g₄ : Text} :
      IsNumber number → unit ≠ [] → (∀ c ∈ unit, c.isAlpha = true) → IsGap g₂ → IsGap g₃ →
        IsGap g₄ → HasUnit (Text.ofString operator.symbol ++
          (g₂ ++ (number ++ (g₃ ++ (unit ++ g₄)))))

/-- **Strays**: bounds with a unit whose name has an unusual i, with their axes. -/
inductive IsStray : Text → Text → Prop
  | intro {axis : Axis} {name gap rest : Text} :
      Condition.spells axis.name name = true → HasUnusualI name → IsGap gap → HasUnit rest →
        .char '\n' ∉ rest → IsStray (lower name) (name ++ (gap ++ rest))

section Bounds

variable {α : Type} [Quantity α] {key segment s a rest : Text} {f : Fault}

/-- A bound is refused, or it has a unit on an axis without one. -/
theorem boundAfter_eq_error
    (h : (boundAfter key segment a rest : Except Fault (Comparison α)) = .error f) :
    (∃ cause, f = .refused key cause) ∨ f = .unknownAxis a ∧ unit? a = none ∧ HasUnit rest := by
  unfold boundAfter at h
  dsimp only at h
  split at h
  · cases h
    exact Or.inl ⟨_, rfl⟩
  · split at h
    · cases h
      exact Or.inl ⟨_, rfl⟩
    · rename_i operator hoperator
      split at h
      · cases h
        exact Or.inl ⟨_, rfl⟩
      · rename_i d unit hunit
        split at h
        · cases h
        · rename_i hne
          split at h
          · -- The axis has no unit, but the bound has one.
            rename_i haxis
            cases h
            refine Or.inr ⟨rfl, haxis, ?_⟩
            obtain ⟨number, g₂, g₃, g₄, hnumber, hletters, hg₂, hg₃, hg₄, hrest⟩ :=
              exists_measure hoperator hunit
            rw [hrest]
            exact .intro hnumber (by simpa using hne) hletters hg₂ hg₃ hg₄
          · split at h
            · cases h
            · cases h
              exact Or.inl ⟨_, rfl⟩

/-- Neither a blank nor the beginning of a number belongs to an operator. -/
theorem not_isOperatorChar {c : CodePoint}
    (h : isBlank c = true ∨ isDecimalDigit c = true ∨ c = '.') : isOperatorChar c = false := by
  refine Bool.eq_false_iff.mpr fun hoperator => ?_
  simp only [isOperatorChar, Bool.or_eq_true, beq_iff_eq] at hoperator
  rcases hoperator with ((rfl | rfl) | rfl) | rfl <;> revert h <;> decide

theorem HasUnit.boundAfter_eq (h : HasUnit rest) (haxis : unit? a = none) :
    (boundAfter key segment a rest : Except Fault (Comparison α)) = .error (.unknownAxis a) := by
  cases h with
  | @intro operator number unit g₂ g₃ g₄ hnumber hne hletters hg₂ hg₃ hg₄ =>
      have hsymbol : ∀ c ∈ Text.ofString operator.symbol, isOperatorChar c = true := by
        cases operator <;> decide
      have hsome : (Text.ofString operator.symbol).isEmpty = false := by cases operator <;> rfl
      obtain ⟨d, tail, hcons, hd⟩ := hnumber.exists_cons
      have hafter : ∀ c, (g₂ ++ (number ++ (g₃ ++ (unit ++ g₄)))).head? = some c →
          isOperatorChar c = false := by
        intro c hc
        apply not_isOperatorChar
        cases g₂ with
        | nil =>
            rw [hcons] at hc
            cases hc
            exact Or.inr hd
        | cons b gap =>
            obtain rfl : b = c := Option.some.inj hc
            exact Or.inl (hg₂ b List.mem_cons_self)
      have htrim : trim (g₂ ++ (number ++ (g₃ ++ (unit ++ g₄)))) = number ++ (g₃ ++ unit) := by
        simpa using hnumber.trim_eq hne hletters hg₂ hg₄
      obtain ⟨n, hn⟩ := hnumber.exists_numberAndUnit? hg₃ hletters
      have hunit : unit.isEmpty = false := by simpa using hne
      unfold boundAfter
      simp only [takeWhile_append_of_head hsymbol hafter, dropWhile_append_of_head hsymbol hafter,
        hsome, Operator.ofSymbol?_symbol, htrim, hn, hunit, haxis, Bool.false_eq_true, if_false]

/-! ## Strays among conditions -/

theorem HasUnit.exists_cons (h : HasUnit rest) :
    ∃ c tail, rest = c :: tail ∧ isWordChar c = false ∧ isBlank c = false := by
  cases h with
  | @intro operator =>
      cases operator with
      | greater => exact ⟨.char '>', _, rfl, by decide, by decide⟩
      | atLeast => exact ⟨.char '>', _, rfl, by decide, by decide⟩
      | less => exact ⟨.char '<', _, rfl, by decide, by decide⟩
      | atMost => exact ⟨.char '<', _, rfl, by decide, by decide⟩

theorem IsStray.ne_nil (h : IsStray a s) : s ≠ [] := by
  cases h with
  | @intro axis name _ _ hname =>
      cases name with
      | nil => cases axis <;> cases hname
      | cons c name => exact List.cons_ne_nil _ _

/-- The reader stops at a stray. -/
theorem IsStray.bound?_eq (h : IsStray a s) :
    (bound? key s : Except Fault (Option (Text × Comparison α))) = .error (.unknownAxis a) := by
  cases h with
  | @intro axis name gap rest hname hunusual hgap hunit hline =>
      obtain ⟨c, tail, hrest, hword, hblank⟩ := hunit.exists_cons
      have hends : wordEnds (gap ++ rest) = true := by
        cases gap with
        | nil => simp [hrest, wordEnds, hword]
        | cons b gap =>
            simp [wordEnds, not_isWordChar_of_isBlank (hgap b List.mem_cons_self)]
      have hstart : trimStart rest = rest := by rw [hrest, trimStart_cons hblank]
      have haxis : axis? (name ++ (gap ++ rest)) = some (lower name, rest) :=
        axis?_eq_some_iff.mpr ⟨axis, name, gap, hname, hgap, rfl, rfl, hends, hstart, hline⟩
      rw [bound?_of_axis?_eq_some haxis,
        hunit.boundAfter_eq ((unit?_lower_eq_none_iff hname).mpr hunusual)]
      rfl

/-- A condition that is not read as a bound is refused or a stray. -/
theorem bound?_eq_error
    (h : (bound? key s : Except Fault (Option (Text × Comparison α))) = .error f) :
    (∃ cause, f = .refused key cause) ∨ ∃ a, f = .unknownAxis a ∧ IsStray a s := by
  unfold bound? at h
  split at h
  · cases h
  · rename_i a rest haxis
    rcases boundAfter_eq_error (map_eq_error.mp h) with hrefused | ⟨rfl, hnone, hunit⟩
    · exact Or.inl hrefused
    · obtain ⟨axis, name, gap, hname, hgap, rfl, rfl, -, -, hline⟩ := axis?_eq_some_iff.mp haxis
      have hunusual := (unit?_lower_eq_none_iff hname).mp hnone
      exact Or.inr ⟨_, rfl, .intro hname hunusual hgap hunit hline⟩

theorem clause_eq_error (h : (clause key s : Except Fault (Clause α)) = .error f) :
    (∃ cause, f = .refused key cause) ∨ ∃ a, f = .unknownAxis a ∧ IsStray a s := by
  unfold clause at h
  rcases bind_eq_error.mp h with hbound | ⟨bound, -, hclause⟩
  · exact bound?_eq_error hbound
  · cases bound with
    | some b => cases hclause
    | none =>
        obtain ⟨e, -, rfl⟩ := mapError_eq_error.mp (map_eq_error.mp hclause)
        exact Or.inl ⟨e, rfl⟩

theorem IsStray.clause_eq (h : IsStray a s) :
    (clause key s : Except Fault (Clause α)) = .error (.unknownAxis a) := by
  unfold clause
  rw [h.bound?_eq]
  rfl

/-! ## Strays in tags -/

/-- **Where reading stops**: at the first condition that is a stray, if the conditions before it are
read. -/
def StopsAt (α : Type) [Quantity α] (key : Text) (value : Option Text) (a : Text) : Prop :=
  ∃ text inner before part after, ∃ cs : List (Clause α),
    splitValue value = .ok (text, inner) ∧
      splitAt (.char ';') inner = before ++ part :: after ∧
        clauses key inner [] before = .ok cs ∧ IsStray a (trim part)

end Bounds

end Condition

section Reading

variable {α : Type} [Quantity α] {key a : Text} {value : Option Text} {f : Fault}

/-- **A tag that is not read is refused or has a stray.** -/
theorem Restriction.read_eq_error
    (h : (Restriction.read key value : Except Fault (Restriction α)) = .error f) :
    (∃ cause, f = .refused key cause) ∨ ∃ a, f = .unknownAxis a ∧ StopsAt α key value a := by
  cases hsplit : splitValue value with
  | error e =>
      rw [read_of_not_split hsplit] at h
      cases h
      exact Or.inl ⟨e, rfl⟩
  | ok p =>
      obtain ⟨text, inner⟩ := p
      rw [read_of_splitValue hsplit] at h
      obtain ⟨before, part, after, cs, hparts, hbefore, hbad⟩ :=
        clauses_eq_error_iff.mp (map_eq_error.mp h)
      rcases hbad with hbad | ⟨c, axis, -, -, -, rfl⟩
      · unfold readPart at hbad
        split at hbad
        · cases hbad
          exact Or.inl ⟨_, rfl⟩
        · refine (clause_eq_error hbad).imp_right ?_
          rintro ⟨a, rfl, hstray⟩
          exact ⟨a, rfl, text, inner, before, part, after, cs, hsplit, hparts, hbefore, hstray⟩
      · exact Or.inl ⟨_, rfl⟩

/-- A refusal names the key of the tag. -/
theorem Restriction.key_eq_of_refused {k : Text} {cause : Refusal}
    (h : (Restriction.read key value : Except Fault (Restriction α)) = .error (.refused k cause)) :
    k = key := by
  rcases Restriction.read_eq_error h with ⟨cause', hcause⟩ | ⟨a, ha, -⟩
  · cases hcause
    rfl
  · cases ha

/-- **Reading stops just at strays.** -/
theorem Restriction.read_eq_unknownAxis_iff :
    (Restriction.read key value : Except Fault (Restriction α)) = .error (.unknownAxis a) ↔
      StopsAt α key value a := by
  constructor
  · intro h
    rcases Restriction.read_eq_error h with ⟨cause, hcause⟩ | ⟨a', ha, hstops⟩
    · cases hcause
    · cases ha
      exact hstops
  · rintro ⟨text, inner, before, part, after, cs, hsplit, hparts, hbefore, hstray⟩
    have hne : ¬ (trim part).isEmpty = true := by simpa using hstray.ne_nil
    have hpart : (readPart key inner part : Except Fault (Clause α)) =
        .error (.unknownAxis a) := by
      rw [readPart, if_neg hne]
      exact hstray.clause_eq
    rw [read_of_splitValue hsplit, map_eq_error]
    exact clauses_eq_error_iff.mpr ⟨before, part, after, cs, hparts, hbefore, Or.inl hpart⟩

end Reading

end RoadRules
