import RoadRules.Proofs.Condition.WholeMinutes
import RoadRules.Proofs.Number.Rational
import RoadRules.Proofs.Window.Search

set_option autoImplicit false

/-! # Every window becomes active again

A window of whole minutes is active when its hours begin on a day that its weekdays and months
admit. Such a day comes within a week if the months do not matter, and within little more than a
year otherwise, whatever the selections are (`TimeWindow.opensWithin_week`,
`TimeWindow.opensWithin_year`). So a search with a horizon that is long enough never reports that
there is no activation (`nextActivationOf_recurs`). -/

namespace RoadRules

open Calendar

/-! ## The start of the hours -/

/-- Hours begin with their start. -/
theorem Hours.covers_start (h : Hours) : h.covers h.start = true := by
  unfold covers
  by_cases hday : h.spansAllDay = true
  · rw [if_pos hday]
  · rw [if_neg hday]
    by_cases hnight : h.spansMidnight = true
    · simp [hnight]
    · have hne : h.start.micros ≠ h.stop.micros := by simpa [spansAllDay] using hday
      have hle : h.start.micros ≤ h.stop.micros := by simpa [spansMidnight] using hnight
      simp [hnight, Nat.lt_of_le_of_ne hle hne]

namespace Calendar.LocalTime

/-- A time of day comes within a day from any point on. -/
theorem exists_day_of_time (t : LocalTime) (s : TimeOfDay) :
    ∃ n, t.micros ≤ n * microsPerDay + s.micros ∧
      n * microsPerDay + s.micros < t.micros + microsPerDay := by
  have hs := s.micros_lt
  unfold microsPerDay at hs ⊢
  by_cases hpast : t.micros % 86400000000 ≤ s.micros
  · exact ⟨t.micros / 86400000000, by omega, by omega⟩
  · exact ⟨t.micros / 86400000000 + 1, by omega, by omega⟩

end Calendar.LocalTime

namespace TimeWindow

/-- The time of day with which the hours of a window begin. -/
def opening (w : TimeWindow) : TimeOfDay := (w.hours.map Hours.start).getD .midnight

theorem covers_opening (w : TimeWindow) : w.hours.all (·.covers w.opening) = true := by
  unfold opening
  cases w.hours with
  | none => rfl
  | some h => exact h.covers_start

variable {w : TimeWindow} {t u : LocalTime} {days : Nat} {h : Int}

/-- A window is active when its hours begin on a day that it admits. -/
theorem isActiveAt_opening {n : Nat} (ht : t.micros = n * microsPerDay + w.opening.micros)
    (hday : w.days.admits (Date.weekdayOf n) = true)
    (hmonth : w.months.admits (Date.ofDayNumber n).month = true) : w.isActiveAt t = true := by
  have hnumber : t.dayNumber = n := LocalTime.dayNumber_of_micros_eq ht
  have htime : t.time = w.opening := LocalTime.time_of_micros_eq ht
  unfold isActiveAt LocalTime.weekday
  rw [LocalTime.month_eq, hnumber, htime, hday, hmonth, w.covers_opening]
  rfl

/-! ## Days that a window admits -/

/-- Whether one of any number of days in a row is a day that a window admits. -/
def OpensWithin (w : TimeWindow) (days : Nat) : Prop :=
  ∀ n, ∃ k < days, w.days.admits (Date.weekdayOf (n + k)) = true ∧
    w.months.admits (Date.ofDayNumber (n + k)).month = true

/-- **A window for all months opens every week.** -/
theorem opensWithin_week (hmonths : w.months.isEmpty = true) : w.OpensWithin 7 := by
  intro n
  obtain ⟨d, hd⟩ := w.days.exists_admits
  obtain ⟨k, hk, hday⟩ := Weekday.exists_weekdayOf_add n d
  exact ⟨k, hk, hday ▸ hd, Selection.admits_iff.mpr (Or.inl hmonths)⟩

/-- **Every window opens every year**, and at most a week later. -/
theorem opensWithin_year (w : TimeWindow) : w.OpensWithin 372 := by
  intro n
  obtain ⟨d, hd⟩ := w.days.exists_admits
  obtain ⟨m, hm⟩ := w.months.exists_admits
  obtain ⟨k, hk, hday, hmonth⟩ := Month.exists_day n d m
  exact ⟨k, hk, hday ▸ hd, hmonth ▸ hm⟩

/-- If a window opens within a number of days, it is active within them from any point on. -/
theorem OpensWithin.exists_active (hopen : w.OpensWithin days)
    (hin : t.micros + days * microsPerDay ≤ calendarMicros) :
    ∃ u : LocalTime, t.micros ≤ u.micros ∧ u.micros < t.micros + days * microsPerDay ∧
      w.isActiveAt u = true := by
  obtain ⟨n, hle, hlt⟩ := t.exists_day_of_time w.opening
  obtain ⟨k, hk, hday, hmonth⟩ := hopen n
  have hsum : (n + k) * microsPerDay = n * microsPerDay + k * microsPerDay := Nat.add_mul ..
  have hdays : (k + 1) * microsPerDay ≤ days * microsPerDay := Nat.mul_le_mul_right _ hk
  rw [Nat.succ_mul] at hdays
  have hwithin : (n + k) * microsPerDay + w.opening.micros < calendarMicros := by omega
  refine ⟨⟨(n + k) * microsPerDay + w.opening.micros, hwithin⟩, ?_, ?_, ?_⟩
  · dsimp only
    omega
  · dsimp only
    omega
  · exact isActiveAt_opening rfl hday hmonth

end TimeWindow

/-! ## Searches that find something -/

section Search

variable {p : LocalTime → Bool} {t u : LocalTime} {h : Int}

/-- A point that has a steady property which another one before it lacks is in a later minute. -/
theorem SteadyInMinutes.later (hp : SteadyInMinutes p) (ht : p t = false) (hu : p u = true)
    (htu : t.micros ≤ u.micros) : t.startOfMinute.micros + microsPerMinute ≤ u.micros := by
  by_contra hbefore
  rw [hp.noneBetween ht u htu (by omega)] at hu
  cases hu

/-- A search does not leave the calendar if there is something to be found before its end. -/
theorem SteadyInMinutes.firstMinute_ok (hp : SteadyInMinutes p) (hu : p u = true) {count : Nat}
    (hstart : t.micros % microsPerMinute = 0) (htu : t.micros ≤ u.micros)
    (hlt : u.micros < t.micros + count * microsPerMinute) :
    ∃ o, firstMinute p count t = .ok o := by
  induction count generalizing t with
  | zero => exact ⟨none, rfl⟩
  | succ count ih =>
      rw [Nat.succ_mul] at hlt
      rw [firstMinute]
      split
      · exact ⟨some t, rfl⟩
      · rename_i hlacks
        have hlater := hp.later (Bool.eq_false_iff.mpr hlacks) hu htu
        rw [LocalTime.micros_startOfMinute, hstart, Nat.sub_zero] at hlater
        obtain ⟨next, hnext, hmicros⟩ :=
          LocalTime.exists_nextMinute (Nat.lt_of_le_of_lt hlater u.micros_lt)
        rw [inCalendar_eq_ok.mpr hnext, ok_bind]
        exact ih (by rw [hmicros, Nat.add_mod_right, hstart]) (by omega) (by omega)

/-- The same for the search over the minutes after a point, if the horizon ends in the calendar. -/
theorem SteadyInMinutes.firstMinuteAfter_ok (hp : SteadyInMinutes p) (ht : p t = false)
    (hu : p u = true) (htu : t.micros ≤ u.micros) (hul : (u.micros : Int) ≤ t.micros + h)
    (hin : t.micros + h < calendarMicros) : ∃ o, firstMinuteAfter p t h = .ok o := by
  have hlater := hp.later ht hu htu
  obtain ⟨first, hfirst, hmicros⟩ :=
    LocalTime.exists_nextMinute (t := t.startOfMinute) (Nat.lt_of_le_of_lt hlater u.micros_lt)
  obtain ⟨limit, hend, hsum⟩ := t.exists_add? (by omega) hin
  unfold firstMinuteAfter
  rw [inCalendar_eq_ok.mpr hfirst, ok_bind, inCalendar_eq_ok.mpr hend, ok_bind]
  split
  · exact ⟨none, rfl⟩
  · have hcount := Nat.div_add_mod' (limit.micros - first.micros) microsPerMinute
    have hmod : (limit.micros - first.micros) % microsPerMinute < microsPerMinute :=
      Nat.mod_lt _ (by decide)
    refine hp.firstMinute_ok hu ?_ (by omega) ?_
    · rw [hmicros, Nat.add_mod_right, t.startOfMinute_mod]
    · rw [Nat.succ_mul]
      omega

/-- A search whose horizon ends behind the calendar fails. -/
theorem firstMinuteAfter_beyond (hout : (calendarMicros : Int) ≤ t.micros + h) :
    firstMinuteAfter p t h = .error .beyondCalendar := by
  have hnone : t.add? h = none := by
    rw [Option.eq_none_iff_forall_ne_some]
    intro limit hend
    have hsum := LocalTime.add?_eq_some.mp hend
    have hlimit := limit.micros_lt
    omega
  unfold firstMinuteAfter
  cases t.startOfMinute.nextMinute? with
  | none => rfl
  | some first => rw [hnone]; rfl

end Search

namespace TimeWindow

/-- **What the search answers for a window that becomes active again** within a number of days: when
it does, unless the horizon ends behind the calendar. -/
inductive Recurs (w : TimeWindow) (days : Nat) (m : Moment) (h : Int) :
    Except Fault (Option Moment) → Prop
  | found {r : Moment} : w.IsNextActivation m.wall h r.wall → r.offset = m.offset →
      r.wall.micros ≤ m.wall.micros + days * microsPerDay → Recurs w days m h (.ok (some r))
  | beyond : (calendarMicros : Int) ≤ m.wall.micros + h → Recurs w days m h (.error .beyondCalendar)

variable {w : TimeWindow} {days : Nat} {h : Int}

/-- Unless the horizon ends behind the calendar, the search answers with a moment. -/
theorem Recurs.exists_found {m : Moment} {answer : Except Fault (Option Moment)}
    (ha : w.Recurs days m h answer) (hin : m.wall.micros + h < calendarMicros) :
    ∃ r, answer = .ok (some r) ∧ r.offset = m.offset ∧ w.IsNextActivation m.wall h r.wall ∧
      r.wall.micros ≤ m.wall.micros + days * microsPerDay := by
  cases ha with
  | @found r hr hoffset hle => exact ⟨r, rfl, hoffset, hr, hle⟩
  | beyond hout => omega

/-- A window that opens within a number of days is found again within as many. -/
theorem OpensWithin.recurs (hopen : w.OpensWithin days) (hw : w.IsWhole) (m : Moment)
    (hdays : (days * microsPerDay : Nat) ≤ h) : w.Recurs days m h (w.nextActivationOf m h) := by
  unfold nextActivationOf
  by_cases hactive : w.isActiveAt m.wall = true
  · have hnow : w.nextActivation m.wall h = .ok (some m.wall) := if_pos hactive
    rw [hnow]
    exact .found ((hw.nextActivation_found hnow).1 _ rfl) rfl (Nat.le_add_right ..)
  · have hinactive : w.isActiveAt m.wall = false := Bool.eq_false_iff.mpr hactive
    have hsearch : w.nextActivation m.wall h = firstMinuteAfter w.isActiveAt m.wall h :=
      if_neg hactive
    by_cases hin : (m.wall.micros : Int) + h < calendarMicros
    · obtain ⟨u, htu, hlt, hu⟩ := hopen.exists_active (t := m.wall) (by omega)
      obtain ⟨o, ho⟩ := hw.steady.firstMinuteAfter_ok hinactive hu htu (by omega) hin
      rw [← hsearch] at ho
      obtain ⟨hsome, hnone⟩ := hw.nextActivation_found ho
      cases o with
      | none =>
          rw [hnone rfl u htu (by omega)] at hu
          cases hu
      | some r =>
          have hr := hsome r rfl
          rw [ho]
          refine .found hr rfl ?_
          by_contra hlate
          rw [hr.first u htu (by dsimp only at hlate; omega)] at hu
          cases hu
    · rw [hsearch, firstMinuteAfter_beyond (by omega)]
      exact .beyond (by omega)

/-- **No window is dead.** The search for an activation never reports that there is none if the
horizon is long enough. For a window for all months a week is, and the activation is found within a
week; for any other window 374 days are. In particular every window of a restriction that is read
from a tag becomes active again from any moment on. -/
theorem nextActivationOf_recurs :
    (∀ w : TimeWindow, w.IsWhole → ∀ (m : Moment) (h : Int),
      (w.months.isEmpty = true → (7 * microsPerDay : Nat) ≤ h →
        w.Recurs 7 m h (w.nextActivationOf m h)) ∧
      ((374 * microsPerDay : Nat) ≤ h → w.Recurs 372 m h (w.nextActivationOf m h))) ∧
    ∀ {α : Type} [Quantity α] (key : Text) (value : Option Text) (r : Restriction α),
      Restriction.read key value = .ok r → ∀ w ∈ r.windows, ∀ (m : Moment) (h : Int),
        (374 * microsPerDay : Nat) ≤ h → w.Recurs 372 m h (w.nextActivationOf m h) := by
  have hyear : ∀ w : TimeWindow, w.IsWhole → ∀ (m : Moment) (h : Int),
      (374 * microsPerDay : Nat) ≤ h → w.Recurs 372 m h (w.nextActivationOf m h) := by
    intro w hw m h hh
    refine w.opensWithin_year.recurs hw m (Int.le_trans ?_ hh)
    exact Int.ofNat_le.mpr (Nat.mul_le_mul_right _ (by decide))
  refine ⟨fun w hw m h => ⟨fun hmonths hh => (opensWithin_week hmonths).recurs hw m hh,
    hyear w hw m h⟩, fun key value r hread w hmem => ?_⟩
  exact hyear w (Restriction.isWhole_of_read hread w hmem)

/-- A window for the Mondays of February, early in the morning and late in the evening. -/
def februaryMondays : TimeWindow :=
  ⟨.ofList [.monday], .ofList [.february],
    some ⟨.ofMicros (22 * 3600000000), .ofMicros (6 * 3600000000)⟩⟩

/-- The first moment of a March. -/
def startOfMarch : Moment := ⟨.onDay 738945 0 (by decide), none⟩

theorem nextActivationOf_recurs_februaryMondays :
    weekNights.Recurs 7 lateSunday (7 * microsPerDay : Nat) (.ok (some startOfMonday)) ∧
      ∃ r : Restriction ℚ,
        Restriction.read "hgv:conditional" (some "no @ (Feb Mo 22:00-06:00)") = .ok r ∧
          februaryMondays ∈ r.windows ∧
          ∃ next, februaryMondays.nextActivationOf startOfMarch (374 * microsPerDay : Nat) =
            .ok (some next) ∧ februaryMondays.isActiveAt next.wall = true := by
  have hmonday : weekNights.nextActivationOf lateSunday (7 * microsPerDay : Nat) =
      .ok (some startOfMonday) := by decide +kernel
  have hread : ((Restriction.read "hgv:conditional" (some "no @ (Feb Mo 22:00-06:00)") :
      Except Fault (Restriction ℚ)).map fun r => r.windows) = .ok [februaryMondays] := by
    decide +kernel
  obtain ⟨r, hr, hwindows⟩ := map_eq_ok.mp hread
  have hmem : februaryMondays ∈ r.windows := hwindows ▸ List.mem_singleton_self _
  refine ⟨?_, r, hr, hmem, ?_⟩
  · rw [← hmonday]
    exact (nextActivationOf_recurs.1 weekNights weekNights_isWhole lateSunday _).1
      (by decide) (Int.le_refl _)
  · have hrecurs := nextActivationOf_recurs.2 _ _ r hr _ hmem startOfMarch
      (374 * microsPerDay : Nat) (Int.le_refl _)
    obtain ⟨next, hnext, -, hactive, -⟩ := hrecurs.exists_found (by decide +kernel)
    exact ⟨next, hnext, hactive.active⟩

end TimeWindow

end RoadRules
