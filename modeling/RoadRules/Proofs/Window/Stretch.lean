import RoadRules.Proofs.Window.Overlap

set_option autoImplicit false

/-! # Overlap for any hours

The hours of a window cover one stretch of a day, or two if they run past midnight, and a stretch
may begin and end amid a minute. The test whether windows overlap looks at stretches with both ends
moved back to the start of a minute. So it finds that two stretches share a time unless one begins
in the minute in which the other ends, and it finds nothing else (`TimeWindow.overlaps_iff_apart`):
windows that overlap are active together at some point, but of two windows of half a minute the test
finds nothing, even if they are the same (`TimeWindow.overlaps_halfMinute`). -/

namespace RoadRules

open Calendar

/-! ## Stretches of a day -/

/-- A stretch of a day, in microseconds since midnight. -/
structure Stretch where
  /-- The start, included. -/
  start : Nat
  /-- The end, excluded. -/
  stop : Nat
  /-- A stretch is not empty, -/
  start_lt : start < stop
  /-- and stays within its day. -/
  stop_le : stop ≤ microsPerDay

namespace Stretch

def wholeDay : Stretch := ⟨0, microsPerDay, Nat.le_of_ble_eq_true rfl, Nat.le_refl _⟩

/-- Whether a time of day is in a stretch. -/
def Contains (i : Stretch) (t : TimeOfDay) : Prop := i.start ≤ t.micros ∧ t.micros < i.stop

/-- The minutes of a stretch, with both ends moved back to the start of a minute. -/
def minutes (i : Stretch) : Nat × Nat := (i.start / microsPerMinute, i.stop / microsPerMinute)

/-- **Whether two stretches are apart in minutes**: neither begins in the minute in which the other
ends. -/
def Apart (i j : Stretch) : Prop := i.minutes.1 ≠ j.minutes.2 ∧ j.minutes.1 ≠ i.minutes.2

variable {i j : Stretch}

theorem contains_wholeDay (t : TimeOfDay) : wholeDay.Contains t := ⟨Nat.zero_le _, t.micros_lt⟩

/-- Two stretches share a time just when each begins before the other ends. -/
theorem exists_contains_iff :
    (∃ t, i.Contains t ∧ j.Contains t) ↔ i.start < j.stop ∧ j.start < i.stop := by
  constructor
  · rintro ⟨t, ⟨hit, hti⟩, hjt, htj⟩
    omega
  · rintro ⟨hij, hji⟩
    have hi := i.start_lt
    have hj := j.start_lt
    have hday := i.stop_le
    -- The later of the two starts.
    refine ⟨⟨max i.start j.start, by omega⟩, ⟨?_, ?_⟩, ?_, ?_⟩
    · exact Nat.le_max_left _ _
    · exact Nat.max_lt.mpr ⟨hi, hji⟩
    · exact Nat.le_max_right _ _
    · exact Nat.max_lt.mpr ⟨hij, hj⟩

/-- The minutes of one stretch begin before those of another end just when the stretch does, and
not in the minute of that end. -/
theorem minutes_lt_iff :
    i.minutes.1 < j.minutes.2 ↔ i.start < j.stop ∧ i.minutes.1 ≠ j.minutes.2 := by
  constructor
  · intro h
    exact ⟨Nat.lt_of_div_lt_div h, Nat.ne_of_lt h⟩
  · rintro ⟨hlt, hne⟩
    have hle : i.minutes.1 ≤ j.minutes.2 := Nat.div_le_div_right (Nat.le_of_lt hlt)
    exact Nat.lt_of_le_of_ne hle hne

/-- **The minutes of two stretches meet** just when the stretches share a time and are apart in
minutes. -/
theorem intervalsMeet_minutes_iff :
    intervalsMeet i.minutes j.minutes = true ↔
      (∃ t, i.Contains t ∧ j.Contains t) ∧ i.Apart j := by
  unfold intervalsMeet Apart
  rw [Bool.and_eq_true, decide_eq_true_eq, decide_eq_true_eq, minutes_lt_iff, minutes_lt_iff,
    exists_contains_iff, and_and_and_comm]

end Stretch

/-! ## The stretches of hours -/

namespace Hours

/-- The stretches of a day that hours cover. -/
def stretches (h : Hours) : List Stretch :=
  if _ : h.start.micros = h.stop.micros then [.wholeDay]
  else if _ : h.stop.micros < h.start.micros then
    ⟨h.start.micros, microsPerDay, h.start.micros_lt, Nat.le_refl _⟩ ::
      (if hpos : 0 < h.stop.micros then
        [⟨0, h.stop.micros, hpos, Nat.le_of_lt h.stop.micros_lt⟩] else [])
  else [⟨h.start.micros, h.stop.micros, by omega, Nat.le_of_lt h.stop.micros_lt⟩]

variable (h : Hours)

theorem covers_iff_stretch (t : TimeOfDay) :
    h.covers t = true ↔ ∃ i ∈ h.stretches, i.Contains t := by
  have ht := t.micros_lt
  unfold covers stretches spansAllDay spansMidnight
  simp only [beq_iff_eq, decide_eq_true_eq]
  split
  · simpa using Stretch.contains_wholeDay t
  · split
    · split <;> simp [Stretch.Contains] <;> omega
    · simp [Stretch.Contains]

/-- The ranges of minutes of hours are the minutes of their stretches, up to the range without
minutes at the start of the day. -/
theorem any_minuteIntervals {f : Nat × Nat → Bool} (hf : f (0, 0) = false) :
    h.minuteIntervals.any f = h.stretches.any fun i => f i.minutes := by
  unfold minuteIntervals stretches spansAllDay spansMidnight
  simp only [beq_iff_eq, decide_eq_true_eq]
  split
  · rfl
  · split
    · -- Past midnight both have the part up to midnight, and the part from midnight on unless that
      -- has no minutes or does not exist.
      have hminutes : (if 0 < h.stop.minutes then [(0, h.stop.minutes)] else []).any f =
          f (0, h.stop.minutes) := by
        rcases Nat.eq_zero_or_pos h.stop.minutes with h0 | hpos
        · simp [h0, hf]
        · simp [hpos]
      have hstretch : (if hpos : 0 < h.stop.micros then
            [(⟨0, h.stop.micros, hpos, Nat.le_of_lt h.stop.micros_lt⟩ : Stretch)] else []).any
          (fun i => f i.minutes) = f (0, h.stop.minutes) := by
        rcases Nat.eq_zero_or_pos h.stop.micros with h0 | hpos
        · simp [h0, hf, TimeOfDay.minutes]
        · simp [hpos, Stretch.minutes, TimeOfDay.minutes]
      have hday : microsPerDay / microsPerMinute = minutesPerDay := by decide
      rw [List.any_cons, List.any_cons, hminutes, hstretch]
      simp only [Stretch.minutes, TimeOfDay.minutes, hday]
    · rfl

end Hours

/-! ## The stretches of windows -/

namespace TimeWindow

/-- The stretches of a day that a window covers on its days. -/
def stretches (w : TimeWindow) : List Stretch :=
  match w.hours with
  | none => [.wholeDay]
  | some h => h.stretches

variable (v w : TimeWindow)

theorem covers_iff_stretch (t : TimeOfDay) :
    w.hours.all (·.covers t) = true ↔ ∃ i ∈ w.stretches, i.Contains t := by
  unfold stretches
  split
  · rename_i hhours
    simpa [hhours] using Stretch.contains_wholeDay t
  · rename_i h hhours
    rw [hhours, Option.all_some, h.covers_iff_stretch]

theorem any_minuteIntervals {f : Nat × Nat → Bool} (hf : f (0, 0) = false) :
    w.minuteIntervals.any f = w.stretches.any fun i => f i.minutes := by
  unfold minuteIntervals stretches
  cases w.hours with
  | none => rfl
  | some h => exact h.any_minuteIntervals hf

/-- **The ranges of minutes of two windows meet** just when two of their stretches share a time and
are apart in minutes. -/
theorem any_intervalsMeet_iff_stretch :
    (v.minuteIntervals.any fun a => w.minuteIntervals.any (intervalsMeet a)) = true ↔
      ∃ t : TimeOfDay, ∃ i ∈ v.stretches, ∃ j ∈ w.stretches,
        i.Contains t ∧ j.Contains t ∧ i.Apart j := by
  have hright : ∀ a, w.minuteIntervals.any (intervalsMeet a) =
      w.stretches.any fun j => intervalsMeet a j.minutes :=
    fun a => w.any_minuteIntervals (by simp [intervalsMeet])
  have hleft : (w.minuteIntervals.any (intervalsMeet (0, 0))) = false := by
    rw [hright]
    simp [intervalsMeet]
  rw [v.any_minuteIntervals (f := fun a => w.minuteIntervals.any (intervalsMeet a)) hleft]
  simp only [hright, List.any_eq_true, Stretch.intervalsMeet_minutes_iff]
  constructor
  · rintro ⟨i, hi, j, hj, ⟨t, hit, hjt⟩, hapart⟩
    exact ⟨t, i, hi, j, hj, hit, hjt, hapart⟩
  · rintro ⟨t, i, hi, j, hj, hit, hjt, hapart⟩
    exact ⟨i, hi, j, hj, ⟨t, hit, hjt⟩, hapart⟩

/-- **What the test for overlap finds**, for hours with any ends: that both windows are active at
some point, in stretches of its day of which neither begins in the minute in which the other
ends. -/
theorem overlaps_iff_apart :
    v.overlaps w = true ↔ ∃ t : LocalTime, v.isActiveAt t = true ∧ w.isActiveAt t = true ∧
      ∃ i ∈ v.stretches, ∃ j ∈ w.stretches,
        i.Contains t.time ∧ j.Contains t.time ∧ i.Apart j := by
  unfold overlaps isActiveAt
  simp only [Bool.and_eq_true, Bool.not_eq_true', Selection.apart_eq_false_iff,
    any_intervalsMeet_iff_stretch]
  constructor
  · rintro ⟨⟨⟨d, hvd, hwd⟩, m, hvm, hwm⟩, s, i, hi, j, hj, his, hjs, hapart⟩
    obtain ⟨t, rfl, rfl, rfl⟩ := LocalTime.exists_of_weekday_month_time d m s
    have hvs := (v.covers_iff_stretch t.time).mpr ⟨i, hi, his⟩
    have hws := (w.covers_iff_stretch t.time).mpr ⟨j, hj, hjs⟩
    exact ⟨t, ⟨⟨hvm, hvd⟩, hvs⟩, ⟨⟨hwm, hwd⟩, hws⟩, i, hi, j, hj, his, hjs, hapart⟩
  · rintro ⟨t, ⟨⟨hvm, hvd⟩, -⟩, ⟨⟨hwm, hwd⟩, -⟩, hstretches⟩
    exact ⟨⟨⟨t.weekday, hvd, hwd⟩, t.month, hvm, hwm⟩, t.time, hstretches⟩

/-- Half a minute of every day, from 07:00 on. -/
def halfMinute : TimeWindow :=
  { always with hours := some ⟨⟨25200000000, by decide⟩, ⟨25230000000, by decide⟩⟩ }

/-- **The test for overlap misses windows that are active together** if they are too short. -/
theorem overlaps_halfMinute :
    ¬ ∀ v w : TimeWindow, (∃ t : LocalTime, v.isActiveAt t = true ∧ w.isActiveAt t = true) →
      v.overlaps w = true := by
  intro hall
  have hactive : halfMinute.isActiveAt ⟨25210000000, by decide⟩ = true := by decide +kernel
  have hmissed : halfMinute.overlaps halfMinute = false := by decide +kernel
  rw [hall halfMinute halfMinute ⟨_, hactive, hactive⟩] at hmissed
  cases hmissed

end TimeWindow

end RoadRules
