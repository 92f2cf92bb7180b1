import Mathlib.Logic.Basic
import RoadRules.Proofs.Calendar.Days
import RoadRules.Window.Named

set_option autoImplicit false

/-! # Daily ranges are arcs of the clock

A daily range covers an ordinary stretch of the day, runs past midnight, or fills the day. On a
clock without a first hour these are one case: a range is the arc from its start forward to its end,
and what it covers lies less far from the start than the end does. A window is active where its
days, its months and its arc say so, and with start and end exchanged it is active at the other
times of these days (`TimeWindow.isActiveAt_iff_arc`). -/

namespace RoadRules

open Calendar

namespace Calendar.TimeOfDay

variable {s t : TimeOfDay}

/-- The microseconds from a start forward around the clock to a time of day. -/
def since (t start : TimeOfDay) : Int := ((t.micros : Int) - start.micros) % microsPerDay

theorem micros_inj : s.micros = t.micros ↔ s = t := ⟨TimeOfDay.ext, congrArg _⟩

/-- A later time of the day is reached on the same day, -/
theorem since_of_le (h : s.micros ≤ t.micros) : t.since s = t.micros - s.micros := by
  have ht := t.micros_lt
  unfold since
  rw [Int.emod_eq_of_lt] <;> omega

/-- and an earlier one on the next. -/
theorem since_of_lt (h : t.micros < s.micros) :
    t.since s = t.micros - s.micros + microsPerDay := by
  have hs := s.micros_lt
  unfold since
  rw [← Int.add_emod_right, Int.emod_eq_of_lt] <;> omega

end Calendar.TimeOfDay

namespace Hours

/-- The daily range from the end of another to its start. -/
def reversed (h : Hours) : Hours := ⟨h.stop, h.start⟩

variable (h : Hours) (t : TimeOfDay)

/-- **A daily range is an arc of the clock**: a time belongs to it if it is reached from the start
before the end is. -/
theorem covers_iff_since :
    h.covers t = true ↔ h.start = h.stop ∨ t.since h.start < h.stop.since h.start := by
  have ht := t.micros_lt
  unfold covers spansAllDay spansMidnight
  simp only [beq_iff_eq, decide_eq_true_eq, ← TimeOfDay.micros_inj]
  by_cases hall : h.start.micros = h.stop.micros
  · simp [hall]
  rw [if_neg hall, or_iff_right hall]
  by_cases hmidnight : h.stop.micros < h.start.micros
  · rw [if_pos hmidnight, TimeOfDay.since_of_lt hmidnight, Bool.or_eq_true, decide_eq_true_eq,
      decide_eq_true_eq]
    rcases Nat.lt_or_ge t.micros h.start.micros with hbefore | hafter
    · rw [TimeOfDay.since_of_lt hbefore]
      omega
    · rw [TimeOfDay.since_of_le hafter]
      omega
  · have hstop : h.stop.since h.start = h.stop.micros - h.start.micros :=
      TimeOfDay.since_of_le (by omega)
    have hday := h.stop.micros_lt
    rw [if_neg hmidnight, hstop, Bool.and_eq_true, decide_eq_true_eq, decide_eq_true_eq]
    rcases Nat.lt_or_ge t.micros h.start.micros with hbefore | hafter
    · rw [TimeOfDay.since_of_lt hbefore]
      omega
    · rw [TimeOfDay.since_of_le hafter]
      omega

variable {h}

/-- Two arcs between the same ends part the clock. -/
theorem covers_reversed (hends : h.start ≠ h.stop) : h.reversed.covers t = !h.covers t := by
  rw [ne_eq, ← TimeOfDay.micros_inj] at hends
  unfold covers spansAllDay spansMidnight reversed
  dsimp only
  rw [beq_eq_false_iff_ne.mpr hends, beq_eq_false_iff_ne.mpr (Ne.symm hends), Bool.eq_iff_iff]
  -- One of the two ranges runs past midnight, and the other does not.
  rcases Nat.lt_or_gt_of_ne hends with hordered | hordered
  · simp [hordered, Nat.lt_asymm hordered]
    omega
  · simp [hordered, Nat.lt_asymm hordered, and_comm]

end Hours

namespace TimeWindow

/-- **A window is active on an arc of the clock**, on its days and in its months. The two windows
between the same two times part the days that they share. -/
theorem isActiveAt_iff_arc :
    (∀ (w : TimeWindow) (t : LocalTime), w.isActiveAt t = true ↔
      (w.months.isEmpty = true ∨ w.months.selects t.month = true) ∧
        (w.days.isEmpty = true ∨ w.days.selects t.weekday = true) ∧
          (w.hours = none ∨ ∃ h, w.hours = some h ∧
            (h.start = h.stop ∨ t.time.since h.start < h.stop.since h.start))) ∧
    ∀ (days : Selection Weekday) (months : Selection Month) (h : Hours) (t : LocalTime),
      h.start ≠ h.stop → (months.isEmpty = true ∨ months.selects t.month = true) →
        (days.isEmpty = true ∨ days.selects t.weekday = true) →
          Xor ((TimeWindow.mk days months (some h)).isActiveAt t = true)
            ((TimeWindow.mk days months (some h.reversed)).isActiveAt t = true) := by
  constructor
  · intro w t
    have hhours : w.hours.all (·.covers t.time) = true ↔ w.hours = none ∨ ∃ h, w.hours = some h ∧
        (h.start = h.stop ∨ t.time.since h.start < h.stop.since h.start) := by
      cases w.hours with
      | none => simp
      | some h => simp [h.covers_iff_since t.time]
    unfold isActiveAt Selection.admits
    rw [Bool.and_eq_true, Bool.and_eq_true, Bool.or_eq_true, Bool.or_eq_true, hhours, and_assoc]
  · intro days months h t hends hmonth hday
    have hactive : ∀ h' : Hours, (TimeWindow.mk days months (some h')).isActiveAt t =
        h'.covers t.time := by
      intro h'
      have hmonth : months.admits t.month = true := Bool.or_eq_true_iff.mpr hmonth
      have hday : days.admits t.weekday = true := Bool.or_eq_true_iff.mpr hday
      unfold isActiveAt
      rw [hmonth, hday, Bool.true_and, Bool.true_and, Option.all_some]
    rw [hactive, hactive, Hours.covers_reversed _ hends]
    cases h.covers t.time with
    | true => exact Or.inl ⟨rfl, nofun⟩
    | false => exact Or.inr ⟨rfl, nofun⟩

/-- From ten in the evening to six in the morning. -/
def night : Hours := .wholeHours 22 6

/-- The last instant before six o'clock on the first Tuesday. -/
def beforeSix : LocalTime := .inFirstYear 1 (by decide) ⟨21599999999, by decide⟩

theorem isActiveAt_iff_arc_night :
    night.start ≠ night.stop ∧ Weekday.workingDays.selects beforeSix.weekday = true ∧
      (TimeWindow.mk Weekday.workingDays .empty (some night)).isActiveAt beforeSix = true ∧
        (TimeWindow.mk Weekday.workingDays .empty (some night.reversed)).isActiveAt beforeSix =
          false := by
  have hends : night.start ≠ night.stop := by decide
  have hday : Weekday.workingDays.selects beforeSix.weekday = true := by decide +kernel
  have hactive : (TimeWindow.mk Weekday.workingDays .empty (some night)).isActiveAt beforeSix =
      true := by decide +kernel
  refine ⟨hends, hday, hactive, ?_⟩
  rcases isActiveAt_iff_arc.2 Weekday.workingDays .empty night beforeSix hends
    (Or.inl (by decide)) (Or.inr hday) with ⟨-, hother⟩ | ⟨-, hother⟩
  · exact Bool.eq_false_iff.mpr hother
  · exact absurd hactive hother

end TimeWindow

end RoadRules
