import RoadRules.Calendar.Moment
import RoadRules.Proofs.Calendar.Cycle
import RoadRules.Proofs.Calendar.Years

set_option autoImplicit false

/-! # Days of the calendar

A weekday, a month and a time of day never exclude each other: every month has each weekday among
its first seven days, so some point of the calendar has all three
(`LocalTime.exists_of_weekday_month_time`), and after little more than a year a day has the two of
them again (`Month.exists_day`). -/

namespace RoadRules.Calendar

/-- The number of days before a month of the first year, which has no leap day. -/
def Month.firstDay (m : Month) : Nat := Date.daysBeforeMonth false m

/-- The first seven days of a month belong to the month. -/
theorem Month.month_firstOf_add {y k : Nat} (hy : 1 ≤ y) (m : Month) (hk : k < 7) :
    (Date.ofDayNumber (Date.firstOf y m + k)).month = m := by
  have hlength := m.le_length (isLeap y)
  unfold Date.firstOf
  rw [Date.ofDayNumber_add hy (by omega)]

theorem Month.firstOf_one (m : Month) : Date.firstOf 1 m = m.firstDay := Nat.zero_add _

theorem Month.firstDay_le (m : Month) : m.firstDay ≤ 334 := by
  cases m <;> decide

/-- Seven days in a row have every weekday among them. -/
theorem Weekday.exists_weekdayOf_add (n : Nat) (d : Weekday) :
    ∃ k < 7, Date.weekdayOf (n + k) = d := by
  have hlisted : ∃ p < 7, week.getD p monday = d := by
    cases d <;> decide
  obtain ⟨p, hp, rfl⟩ := hlisted
  refine ⟨(p + 7 - n % 7) % 7, by omega, ?_⟩
  have hplace : (n + (p + 7 - n % 7) % 7) % 7 = p := by omega
  unfold Date.weekdayOf ofNumber
  rw [hplace]

/-- **Every weekday comes in every month**, and does so within seven days more than a year from any
day on. -/
theorem Month.exists_day (n : Nat) (d : Weekday) (m : Month) :
    ∃ k < 372, Date.weekdayOf (n + k) = d ∧ (Date.ofDayNumber (n + k)).month = m := by
  obtain ⟨y, hy, hle, hwithin⟩ := Date.exists_firstOf n m
  obtain ⟨k, hk, hday⟩ := Weekday.exists_weekdayOf_add (Date.firstOf y m) d
  have hplace : n + (Date.firstOf y m - n + k) = Date.firstOf y m + k := by omega
  exact ⟨Date.firstOf y m - n + k, by omega, hplace ▸ hday,
    hplace ▸ Month.month_firstOf_add hy m hk⟩

/-- The point with a number of days of the first year before its day, at a time of that day. -/
def LocalTime.inFirstYear (n : Nat) (hn : n < 365) (s : TimeOfDay) : LocalTime :=
  ⟨n * microsPerDay + s.micros, by
    have hs := s.micros_lt
    unfold calendarMicros totalDays
    unfold microsPerDay at hs ⊢
    omega⟩

section Points

variable {t : LocalTime} {n : Nat} {s : TimeOfDay}

theorem LocalTime.dayNumber_of_micros_eq (h : t.micros = n * microsPerDay + s.micros) :
    t.dayNumber = n := by
  unfold dayNumber
  rw [h, Nat.add_comm, Nat.add_mul_div_right _ _ (by decide), Nat.div_eq_of_lt s.micros_lt,
    Nat.zero_add]

theorem LocalTime.time_of_micros_eq (h : t.micros = n * microsPerDay + s.micros) :
    t.time = s := by
  apply TimeOfDay.ext
  show t.micros % microsPerDay = s.micros
  rw [h, Nat.mul_add_mod', Nat.mod_eq_of_lt s.micros_lt]

end Points

-- Stated for a point that is a variable: the microseconds of `inFirstYear` are too many to unfold.
theorem LocalTime.month_eq (t : LocalTime) : t.month = (Date.ofDayNumber t.dayNumber).month := rfl

/-- **Every weekday comes in every month**, and has every time of day. -/
theorem LocalTime.exists_of_weekday_month_time (d : Weekday) (m : Month) (s : TimeOfDay) :
    ∃ t : LocalTime, t.weekday = d ∧ t.month = m ∧ t.time = s := by
  obtain ⟨k, hk, hday⟩ := Weekday.exists_weekdayOf_add m.firstDay d
  have hn : m.firstDay + k < 365 := by
    have hfirst := m.firstDay_le
    omega
  have hnumber : (inFirstYear _ hn s).dayNumber = m.firstDay + k := dayNumber_of_micros_eq rfl
  refine ⟨inFirstYear _ hn s, ?_, ?_, time_of_micros_eq rfl⟩
  · unfold weekday
    rw [hnumber, hday]
  · rw [month_eq, hnumber, ← Month.firstOf_one, Month.month_firstOf_add (Nat.le_refl 1) m hk]

/-! ## Selections of members -/

variable {ι : Type} [NamedCycle ι]

/-- An empty selection admits every member, and another one the members that it selects. -/
theorem Selection.admits_iff {a : Selection ι} {i : ι} :
    a.admits i = true ↔ a.isEmpty = true ∨ a.selects i = true := by
  unfold admits
  rw [Bool.or_eq_true]

theorem Selection.exists_selects {a : Selection ι} (h : a.isEmpty = false) :
    ∃ i, a.selects i = true := by
  by_contra hno
  push Not at hno
  rw [isEmpty_iff.mpr fun i => Bool.eq_false_iff.mpr (hno i)] at h
  cases h

/-- Every selection admits some member. -/
theorem Selection.exists_admits [Nonempty ι] (a : Selection ι) : ∃ i, a.admits i = true := by
  simp only [admits_iff]
  cases ha : a.isEmpty with
  | true => simp
  | false => simpa using exists_selects ha

/-- **Two selections are not apart** just when both admit some member. -/
theorem Selection.apart_eq_false_iff [Nonempty ι] {a b : Selection ι} :
    a.apart b = false ↔ ∃ i, a.admits i = true ∧ b.admits i = true := by
  rw [Bool.eq_false_iff, ne_eq, apart_iff]
  simp only [admits_iff]
  cases ha : a.isEmpty with
  | true =>
      cases hb : b.isEmpty with
      | true => simp
      | false => simpa using exists_selects hb
  | false =>
      cases hb : b.isEmpty with
      | true => simpa using exists_selects ha
      | false => simp

instance : Nonempty Weekday := ⟨.monday⟩

instance : Nonempty Month := ⟨.january⟩

end RoadRules.Calendar
