import RoadRules.Calendar.TimeOfDay

set_option autoImplicit false

/-! # The fields of a time of day

The hour, the minute, the second and the microsecond of a time of day are in their ranges and make
up the time again. -/

namespace RoadRules.Calendar.TimeOfDay

variable {t : TimeOfDay}

theorem hour_lt (t : TimeOfDay) : t.hour < 24 := by
  have ht := t.micros_lt
  unfold hour
  unfold microsPerDay at ht
  omega

theorem minute_lt (t : TimeOfDay) : t.minute < 60 := Nat.mod_lt _ (by decide)

theorem second_lt (t : TimeOfDay) : t.second < 60 := Nat.mod_lt _ (by decide)

theorem microsecond_lt (t : TimeOfDay) : t.microsecond < 1000000 := Nat.mod_lt _ (by decide)

/-- The whole seconds of a time of day. -/
theorem seconds_eq (t : TimeOfDay) :
    (t.hour * 60 + t.minute) * 60 + t.second = t.micros / 1000000 := by
  unfold hour minute second
  omega

/-- The whole seconds and the microseconds after them. -/
theorem micros_eq (t : TimeOfDay) : t.micros / 1000000 * 1000000 + t.microsecond = t.micros :=
  Nat.div_add_mod' ..

/-- **The fields of a time of day** make up the time. -/
theorem ofParts?_fields (t : TimeOfDay) :
    ofParts? t.hour t.minute t.second t.microsecond = some t := by
  unfold ofParts?
  rw [if_pos ⟨t.hour_lt, t.minute_lt, t.second_lt, t.microsecond_lt⟩, t.seconds_eq, t.micros_eq]
  exact congrArg some (TimeOfDay.ext (Nat.mod_eq_of_lt t.micros_lt))

/-- A whole minute has no seconds. -/
theorem second_of_isWholeMinute (h : t.isWholeMinute = true) : t.second = 0 := by
  unfold isWholeMinute microsPerMinute at h
  unfold second
  have hwhole := beq_iff_eq.mp h
  omega

theorem microsecond_of_isWholeMinute (h : t.isWholeMinute = true) : t.microsecond = 0 := by
  unfold isWholeMinute microsPerMinute at h
  unfold microsecond
  have hwhole := beq_iff_eq.mp h
  omega

end RoadRules.Calendar.TimeOfDay
