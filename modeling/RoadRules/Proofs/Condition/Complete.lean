import RoadRules.Proofs.Condition.Bounds
import RoadRules.Proofs.Condition.Clauses
import RoadRules.Proofs.Condition.Value

set_option autoImplicit false

/-! # Every tag of the grammar is read with its meaning

The grammar allows a writer much freedom: in white space, in the digits of times and numbers, in the
order of conditions. Whatever is chosen, the tag is accepted, and the restriction that is read is
the one that the tree states (`Restriction.read_text`). -/

namespace RoadRules

open Text

namespace Condition

/-! ## The marks between conditions do not occur inside -/

def innerMarks : Text := ":-,.<>="

/-- Whether a character may stand inside a condition. -/
def IsInner (c : CodePoint) : Prop :=
  isBlank c = true ∨ isDecimalDigit c = true ∨ c.isAlpha = true ∨ c ∈ innerMarks

instance (c : CodePoint) : Decidable (IsInner c) :=
  inferInstanceAs (Decidable (isBlank c = true ∨ isDecimalDigit c = true ∨ c.isAlpha = true ∨
    c ∈ innerMarks))

theorem Gap.isInner (gap : Gap) {c : CodePoint} (h : c ∈ gap.text) : IsInner c :=
  Or.inl (gap.blank c h)

theorem Digits.isInner (d : Digits) {c : CodePoint} (h : c ∈ d.text) : IsInner c :=
  Or.inr (Or.inl (d.digits c h))

theorem Schedule.isInner (s : Schedule) {c : CodePoint} (h : c ∈ s.text) : IsInner c := by
  rcases s.spells.mem h with h | h | h | rfl | rfl | rfl
  · exact Or.inl h
  · exact Or.inr (Or.inl h)
  · exact Or.inr (Or.inr (Or.inl h))
  all_goals decide

theorem Bound.isInner (b : Bound) {c : CodePoint} (h : c ∈ b.text) : IsInner c := by
  have hname : ∀ c ∈ b.axis.name, IsInner c := by cases b.axis <;> decide
  have hsymbol : ∀ c ∈ Text.ofString b.operator.symbol, IsInner c := by
    cases b.operator <;> decide
  have hunit : IsInner b.axis.unit := by cases b.axis <;> decide
  simp only [text, List.mem_append] at h
  rcases h with h | h | h | h | h | h | h
  · exact hname c h
  · exact b.beforeOperator.isInner h
  · exact hsymbol c h
  · exact b.beforeNumber.isInner h
  · exact b.whole.isInner h
  · unfold fractionText at h
    split at h
    · cases h
    · rcases List.mem_cons.mp h with rfl | h
      · decide
      · exact Digits.isInner _ h
  · unfold unitText at h
    split at h
    · cases h
    · rcases List.mem_append.mp h with h | h
      · exact Gap.isInner _ h
      · rw [List.mem_singleton.mp h]
        exact hunit

theorem Segment.isInner (s : Segment) {c : CodePoint} (h : c ∈ s.text) : IsInner c := by
  simp only [text, List.mem_append] at h
  rcases h with (h | h) | h
  · exact s.before.isInner h
  · cases hphrase : s.phrase with
    | schedule schedule => exact schedule.isInner (by rw [hphrase] at h; exact h)
    | bound bound => exact bound.isInner (by rw [hphrase] at h; exact h)
  · exact s.after.isInner h

/-- Between the parentheses of a tag there are conditions and semicolons. -/
theorem WrittenTag.isInner (t : WrittenTag) {c : CodePoint} (h : c ∈ t.inner) :
    c = ';' ∨ IsInner c := by
  refine (mem_joined h).imp_right ?_
  rintro ⟨part, hpart, hc⟩
  obtain ⟨s, -, rfl⟩ := List.mem_map.mp hpart
  exact s.isInner hc

/-! ## Conditions -/

section Clauses

variable {α : Type} [Quantity α]

def Phrase.clause : Phrase → Clause α
  | schedule s => .windows s.windows
  | bound b => .bound b.axis.name b.comparison

theorem Axis.name_injective {a b : Axis} (h : a.name = b.name) : a = b := by
  revert h
  cases a <;> cases b <;> decide

theorem Phrase.axis?_clause (p : Phrase) :
    (p.clause : Clause α).axis? = p.axis?.map Axis.name := by
  cases p <;> rfl

theorem Segment.trim_text (s : Segment) : trim s.text = trim s.phrase.text :=
  trim_around s.before.blank s.after.blank

/-- **A condition is read with its meaning.** -/
theorem Segment.clause_eq (key : Text) (s : Segment) :
    Condition.clause key (trim s.text) = .ok (s.phrase.clause : Clause α) := by
  rw [s.trim_text]
  unfold Condition.clause
  cases s.phrase with
  | schedule schedule =>
      show (bound? key (trim schedule.text) >>= _) = _
      rw [bound?_of_axis?_eq_none schedule.axis?_trim]
      show ((windows (trim schedule.text)).mapError _).map _ = _
      rw [schedule.windows_trim]
      rfl
  | bound bound =>
      show (bound? key (trim bound.text) >>= _) = _
      rw [bound.trim_text, bound.bound?_text]
      rfl

theorem Segment.trim_text_ne_nil (s : Segment) : trim s.text ≠ [] := by
  rw [s.trim_text]
  cases s.phrase with
  | schedule schedule =>
      intro hnil
      have hspells := schedule.spells.trim
      change trim schedule.text = [] at hnil
      rw [hnil] at hspells
      have htokens : tokens [] = .ok schedule.tokens := hspells.tokens_eq
      rw [tokens] at htokens
      exact schedule.tokens_ne_nil (Except.ok.inj htokens).symm
  | bound bound =>
      show trim bound.text ≠ []
      rw [bound.trim_text]
      simp [Bound.text, bound.whole.ne_nil]

/-- Conditions of which no two bound the same dimension are read with their meanings. -/
theorem clauses_eq (key inner : Text) (seen : List Text) (segments : List Segment)
    (hnodup : (segments.filterMap fun s => s.phrase.axis?).Nodup)
    (hseen : ∀ s ∈ segments, ∀ a, s.phrase.axis? = some a → a.name ∉ seen) :
    clauses key inner seen (segments.map Segment.text) =
      .ok (segments.map fun s => (s.phrase.clause : Clause α)) := by
  induction segments generalizing seen with
  | nil => rfl
  | cons s rest ih =>
      refine clauses_cons_eq_ok_iff.mpr
        ⟨s.phrase.clause, _, s.trim_text_ne_nil, s.clause_eq key, ?_, ih _ ?_ ?_, rfl⟩
      · intro axis haxis
        rw [s.phrase.axis?_clause] at haxis
        obtain ⟨a, ha, rfl⟩ := Option.map_eq_some_iff.mp haxis
        exact hseen s List.mem_cons_self a ha
      · exact hnodup.sublist ((List.sublist_cons_self s rest).filterMap _)
      · intro s' hs' a' ha' hmem
        rw [s.phrase.axis?_clause] at hmem
        rcases List.mem_append.mp hmem with hname | hmem
        · -- the dimension would be bounded twice
          obtain ⟨a, ha, heq⟩ := Option.map_eq_some_iff.mp (Option.mem_toList.mp hname)
          cases Axis.name_injective heq
          rw [List.filterMap_cons, ha] at hnodup
          exact (List.nodup_cons.mp hnodup).1 (List.mem_filterMap.mpr ⟨s', hs', ha'⟩)
        · exact hseen s' (List.mem_cons_of_mem _ hs') a' ha' hmem

/-- The comparison with a dimension is that of the condition that bounds it. -/
theorem findSome?_clause (axis : Axis) (segments : List Segment) :
    (segments.map fun s => (s.phrase.clause : Clause α)).findSome? (Clause.boundOn? axis.name) =
      segments.findSome? fun s => s.phrase.comparisonOn? axis := by
  rw [List.findSome?_map]
  congr 1
  funext s
  show Clause.boundOn? axis.name (s.phrase.clause : Clause α) = _
  cases s.phrase with
  | schedule schedule => rfl
  | bound b =>
      show (if b.axis.name = axis.name then _ else _) = if b.axis = axis then _ else _
      by_cases haxis : b.axis = axis
      · rw [if_pos haxis, if_pos (congrArg Axis.name haxis)]
      · rw [if_neg haxis, if_neg fun h => haxis (Axis.name_injective h)]

theorem flatMap_clause (segments : List Segment) :
    (segments.map fun s => (s.phrase.clause : Clause α)).flatMap Clause.windowList =
      segments.flatMap fun s => s.phrase.windows := by
  rw [List.flatMap_map]
  congr 1
  funext s
  cases s.phrase <;> rfl

end Clauses

/-! ## Tags -/

namespace WrittenTag

variable (t : WrittenTag)

/-- The value and the conditions of a tag are told apart. -/
theorem splitValue_text : splitValue (some t.text) = .ok (trim t.value, t.inner) := by
  obtain ⟨c, hc, hblank⟩ := t.value_notBlank
  have hat : .char '@' ∉ t.beforeValue.text ++ t.value ++ t.afterValue.text := by
    have hgap : ∀ gap : Gap, .char '@' ∉ gap.text := fun gap h => by
      have hat := gap.blank _ h
      revert hat
      decide
    simp [hgap, t.value_noAt]
  have hparens : ∀ c : CodePoint, c = '(' ∨ c = ')' → c ∉ t.inner := by
    intro c hc hmem
    rcases t.isInner hmem with rfl | hinner
    · rcases hc with hc | hc <;> cases hc
    · rcases hc with rfl | rfl <;> revert hinner <;> decide
  have hvalue : ∃ c ∈ t.beforeValue.text ++ t.value ++ t.afterValue.text, isBlank c = false :=
    ⟨c, by simp [hc], hblank⟩
  rw [← trim_around (s := t.value) t.beforeValue.blank t.afterValue.blank]
  exact splitValue_enclosed hvalue hat t.beforeConditions.blank t.afterConditions.blank
    (hparens _ (Or.inl rfl)) (hparens _ (Or.inr rfl))

theorem splitAt_inner : splitAt (.char ';') t.inner = t.segments.map Segment.text := by
  refine splitAt_joined (by simpa using t.ne_nil) fun part hpart hmem => ?_
  obtain ⟨s, -, rfl⟩ := List.mem_map.mp hpart
  have hinner := s.isInner hmem
  revert hinner
  decide

end WrittenTag

end Condition

/-- **Every tag of the grammar is accepted and read with its meaning**, however it is written. -/
theorem Restriction.read_text {α : Type} [Quantity α] (key : Text) (t : Condition.WrittenTag) :
    Restriction.read key (some t.text) = .ok (t.restriction key : Restriction α) := by
  have hclauses := Condition.clauses_eq (α := α) key t.inner [] t.segments t.once
    fun _ _ _ _ => List.not_mem_nil
  unfold Restriction.read
  rw [t.splitValue_text]
  show (Condition.clauses key t.inner [] (splitAt (.char ';') t.inner) >>= fun cs =>
    pure (Condition.assemble key (trim t.value) t.text cs)) = _
  rw [t.splitAt_inner, hclauses]
  show Except.ok (Condition.assemble key (trim t.value) t.text _) = _
  unfold Condition.assemble Condition.WrittenTag.restriction
  rw [Condition.flatMap_clause]
  have hweight := Condition.findSome?_clause (α := α) .weight t.segments
  have hheight := Condition.findSome?_clause (α := α) .height t.segments
  simp only [Condition.Axis.name] at hweight hheight
  rw [hweight, hheight]

namespace Condition

/-- A space. -/
def Gap.space : Gap := ⟨[.char ' '], by decide, by decide⟩

/-- A full hour, given by its digits. -/
def fullHour (a b : CodePoint) (hour : Nat) (hab : IsPair [a, b])
    (h : natural? [a, b] = some hour) : Clock :=
  ⟨[a, b], hour, .inl hab, h,
    ⟨"00", 0, ⟨.char '0', .char '0', by decide, by decide, rfl⟩, by decide, by decide⟩, none⟩

/-- Weekdays from seven to nineteen o'clock, or a weight above 7.5. -/
def usualTag : WrittenTag where
  beforeValue := .none
  value := "no"
  value_notBlank := ⟨.char 'n', by decide, by decide⟩
  value_noAt := by decide
  afterValue := .space
  beforeConditions := .space
  segments :=
    [⟨.none, .schedule
        { months := none
          afterMonths := .none
          days := some ⟨.range .monday .none .none .friday, []⟩
          afterDays := .space
          times := some
            ⟨{ start := fullHour '0' '7' 7 ⟨_, _, by decide, by decide, rfl⟩ (by decide)
               start_ofDay := by show 7 < 24; decide
               before := .none
               after := .none
               stop := fullHour '1' '9' 19 ⟨_, _, by decide, by decide, rfl⟩ (by decide)
               stop_ofDay := .inl (by show 19 < 24; decide) }, []⟩
          listed := by decide
          parted := by decide
          parted' := fun _ _ => by decide }, .none⟩,
      ⟨.space, .bound
        { axis := .weight
          beforeOperator := .none
          operator := .greater
          beforeNumber := .none
          whole := ⟨"7", by decide, by decide⟩
          fraction := some ⟨"5", by decide, by decide⟩
          unit := none }, .none⟩]
  ne_nil := by simp
  once := by decide
  afterConditions := .none

example : usualTag.text = "no @ (Mo-Fr 07:00-19:00; weight>7.5)" := by decide

end Condition

end RoadRules
