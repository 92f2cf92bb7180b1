import RoadRules.Proofs.Calendar.Days
import RoadRules.Window.Overlap

set_option autoImplicit false

/-! # Overlap is exact for whole minutes

The test whether two windows overlap compares days, months and ranges of minutes; a window is active
at points of the calendar. For windows whose hours begin and end with a minute the two agree
(`TimeWindow.overlaps_iff`): the ranges of minutes of a day are then just the minutes that the hours
cover, ranges that meet share a minute, and days, months and times can be chosen independently. -/

namespace RoadRules

open Calendar

/-! ## Ranges of minutes -/

/-- Whether a minute is in a range of minutes, from the included start to the excluded end. -/
def InMinutes (i : Nat × Nat) (n : Nat) : Prop := i.1 ≤ n ∧ n < i.2

/-- Ranges that are not empty meet just when they share a minute. -/
theorem intervalsMeet_iff {a b : Nat × Nat} (ha : a.1 < a.2) (hb : b.1 < b.2) :
    intervalsMeet a b = true ↔ ∃ n, InMinutes a n ∧ InMinutes b n := by
  unfold intervalsMeet InMinutes
  rw [Bool.and_eq_true, decide_eq_true_eq, decide_eq_true_eq]
  constructor
  · rintro ⟨hab, hba⟩
    -- The later of the two starts.
    exact ⟨max a.1 b.1, by omega, by omega⟩
  · rintro ⟨n, ⟨hna, han⟩, hnb, hbn⟩
    omega

/-! ## Whole minutes -/

namespace Calendar.TimeOfDay

theorem micros_of_isWholeMinute {t : TimeOfDay} (h : t.isWholeMinute = true) :
    t.micros = t.minutes * microsPerMinute := by
  unfold isWholeMinute at h
  rw [beq_iff_eq] at h
  exact (Nat.div_mul_cancel (Nat.dvd_of_mod_eq_zero h)).symm

theorem minutes_lt (t : TimeOfDay) : t.minutes < minutesPerDay := by
  have ht := t.micros_lt
  unfold minutes microsPerMinute minutesPerDay
  unfold microsPerDay at ht
  omega

theorem exists_minutes {n : Nat} (hn : n < minutesPerDay) : ∃ t : TimeOfDay, t.minutes = n := by
  have hday : n * microsPerMinute < microsPerDay := by
    unfold minutesPerDay at hn
    unfold microsPerMinute microsPerDay
    omega
  exact ⟨⟨n * microsPerMinute, hday⟩, Nat.mul_div_cancel n (by decide)⟩

variable {s t : TimeOfDay}

/-- The start of a minute comes no later than a time just when its minute does not. -/
theorem micros_le_iff (hs : s.isWholeMinute = true) :
    s.micros ≤ t.micros ↔ s.minutes ≤ t.minutes := by
  rw [micros_of_isWholeMinute hs]
  exact (Nat.le_div_iff_mul_le (by decide)).symm

theorem micros_lt_iff (ht : t.isWholeMinute = true) :
    s.micros < t.micros ↔ s.minutes < t.minutes := by
  rw [← Nat.not_le, ← Nat.not_le, micros_le_iff ht]

end Calendar.TimeOfDay

/-- Hours that begin and end with a minute. -/
structure Hours.IsWhole (h : Hours) : Prop where
  start : h.start.isWholeMinute = true
  stop : h.stop.isWholeMinute = true

namespace Hours.IsWhole

variable {h : Hours}

theorem spansAllDay_iff (hh : h.IsWhole) :
    h.spansAllDay = true ↔ h.start.minutes = h.stop.minutes := by
  have hle : h.start.micros ≤ h.stop.micros ↔ h.start.minutes ≤ h.stop.minutes :=
    TimeOfDay.micros_le_iff hh.start
  have hge : h.stop.micros ≤ h.start.micros ↔ h.stop.minutes ≤ h.start.minutes :=
    TimeOfDay.micros_le_iff hh.stop
  unfold spansAllDay
  rw [beq_iff_eq]
  omega

theorem spansMidnight_iff (hh : h.IsWhole) :
    h.spansMidnight = true ↔ h.stop.minutes < h.start.minutes := by
  unfold spansMidnight
  rw [decide_eq_true_eq, TimeOfDay.micros_lt_iff hh.start]

/-- The ranges of minutes of whole hours are not empty and do not leave the day. -/
theorem bounds_of_mem (hh : h.IsWhole) {i : Nat × Nat} (hi : i ∈ h.minuteIntervals) :
    i.1 < i.2 ∧ i.2 ≤ minutesPerDay := by
  have hstart := h.start.minutes_lt
  have hstop := h.stop.minutes_lt
  unfold minuteIntervals at hi
  simp only [hh.spansAllDay_iff, hh.spansMidnight_iff] at hi
  split at hi
  · cases List.mem_singleton.mp hi
    decide
  · rename_i hne
    split at hi
    · rcases List.mem_cons.mp hi with rfl | hi
      · exact ⟨hstart, Nat.le_refl _⟩
      · split at hi
        · rename_i hpos
          cases List.mem_singleton.mp hi
          exact ⟨hpos, Nat.le_of_lt hstop⟩
        · cases hi
    · rename_i hle
      cases List.mem_singleton.mp hi
      exact ⟨by omega, Nat.le_of_lt hstop⟩

/-- **Whole hours cover a time** just when its minute is in one of their ranges. -/
theorem covers_iff (hh : h.IsWhole) (t : TimeOfDay) :
    h.covers t = true ↔ ∃ i ∈ h.minuteIntervals, InMinutes i t.minutes := by
  have ht := t.minutes_lt
  unfold covers minuteIntervals InMinutes
  simp only [hh.spansAllDay_iff, hh.spansMidnight_iff]
  split
  · simpa using ht
  · split
    · -- Past midnight: up to the end of the day, and from its start on if the end is later.
      rw [Bool.or_eq_true, decide_eq_true_eq, decide_eq_true_eq, TimeOfDay.micros_le_iff hh.start,
        TimeOfDay.micros_lt_iff hh.stop]
      split
      · simp [ht]
      · rename_i hstop
        have hnever : ¬ t.minutes < h.stop.minutes := by omega
        simp [ht, hnever]
    · rw [Bool.and_eq_true, decide_eq_true_eq, decide_eq_true_eq, TimeOfDay.micros_le_iff hh.start,
        TimeOfDay.micros_lt_iff hh.stop]
      simp

end Hours.IsWhole

/-! ## Windows of whole minutes -/

/-- A window whose hours, if it has any, begin and end with a minute. -/
def TimeWindow.IsWhole (w : TimeWindow) : Prop := ∀ h, w.hours = some h → h.IsWhole

namespace TimeWindow

variable {v w : TimeWindow}

theorem IsWhole.bounds_of_mem (hw : w.IsWhole) {i : Nat × Nat} (hi : i ∈ w.minuteIntervals) :
    i.1 < i.2 ∧ i.2 ≤ minutesPerDay := by
  unfold minuteIntervals at hi
  split at hi
  · cases List.mem_singleton.mp hi
    decide
  · rename_i h hhours
    exact (hw h hhours).bounds_of_mem hi

theorem IsWhole.covers_iff (hw : w.IsWhole) (t : TimeOfDay) :
    w.hours.all (·.covers t) = true ↔ ∃ i ∈ w.minuteIntervals, InMinutes i t.minutes := by
  unfold minuteIntervals
  split
  · rename_i hhours
    simpa [hhours, InMinutes] using t.minutes_lt
  · rename_i h hhours
    rw [hhours, Option.all_some, (hw h hhours).covers_iff]

/-- The ranges of minutes of two windows meet just when their hours cover a common time. -/
theorem any_intervalsMeet_iff (hv : v.IsWhole) (hw : w.IsWhole) :
    (v.minuteIntervals.any fun a => w.minuteIntervals.any (intervalsMeet a)) = true ↔
      ∃ t : TimeOfDay, v.hours.all (·.covers t) = true ∧ w.hours.all (·.covers t) = true := by
  have hmeet : ∀ a ∈ v.minuteIntervals, ∀ b ∈ w.minuteIntervals, (intervalsMeet a b = true ↔
      ∃ n, InMinutes a n ∧ InMinutes b n) := fun a ha b hb =>
    intervalsMeet_iff (hv.bounds_of_mem ha).1 (hw.bounds_of_mem hb).1
  simp only [List.any_eq_true, hv.covers_iff, hw.covers_iff]
  constructor
  · rintro ⟨a, ha, b, hb, hab⟩
    obtain ⟨n, hna, hnb⟩ := (hmeet a ha b hb).mp hab
    obtain ⟨t, rfl⟩ := TimeOfDay.exists_minutes (Nat.lt_of_lt_of_le hna.2 (hv.bounds_of_mem ha).2)
    exact ⟨t, ⟨a, ha, hna⟩, b, hb, hnb⟩
  · rintro ⟨t, ⟨a, ha, hta⟩, b, hb, htb⟩
    exact ⟨a, ha, b, hb, (hmeet a ha b hb).mpr ⟨t.minutes, hta, htb⟩⟩

/-- **Windows of whole minutes overlap** just when both are active at some point. -/
theorem overlaps_iff (hv : v.IsWhole) (hw : w.IsWhole) :
    v.overlaps w = true ↔ ∃ t : LocalTime, v.isActiveAt t = true ∧ w.isActiveAt t = true := by
  unfold overlaps isActiveAt
  simp only [Bool.and_eq_true, Bool.not_eq_true', Selection.apart_eq_false_iff,
    any_intervalsMeet_iff hv hw]
  constructor
  · rintro ⟨⟨⟨d, hvd, hwd⟩, m, hvm, hwm⟩, s, hvs, hws⟩
    obtain ⟨t, rfl, rfl, rfl⟩ := LocalTime.exists_of_weekday_month_time d m s
    exact ⟨t, ⟨⟨hvm, hvd⟩, hvs⟩, ⟨hwm, hwd⟩, hws⟩
  · rintro ⟨t, ⟨⟨hvm, hvd⟩, hvs⟩, ⟨hwm, hwd⟩, hws⟩
    exact ⟨⟨⟨t.weekday, hvd, hwd⟩, t.month, hvm, hwm⟩, t.time, hvs, hws⟩

end TimeWindow

/-- No two windows of a list overlap just when there is no first overlap. -/
theorem firstOverlap_eq_none_iff {ws : List TimeWindow} :
    firstOverlap ws = none ↔ ws.Pairwise fun v w => v.overlaps w = false := by
  induction ws with
  | nil => simp [firstOverlap]
  | cons w rest ih =>
      rw [List.pairwise_cons, ← ih, firstOverlap]
      cases hfound : rest.find? w.overlaps with
      | none =>
          have hapart : ∀ v ∈ rest, w.overlaps v = false := by
            simpa using List.find?_eq_none.mp hfound
          exact (and_iff_right hapart).symm
      | some v =>
          refine ⟨nofun, fun h => ?_⟩
          have hapart := h.1 v (List.mem_of_find?_eq_some hfound)
          rw [List.find?_some hfound] at hapart
          cases hapart

end RoadRules
