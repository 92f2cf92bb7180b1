import RoadRules.Proofs.Results
import RoadRules.Proofs.Window.Overlap
import RoadRules.Window.Search

set_option autoImplicit false

/-! # The search for the edges of a window is exact

A search only looks at the starts of minutes, but what it reports holds to the microsecond. A window
whose hours begin and end with a minute is either active or inactive throughout a minute
(`TimeWindow.IsWhole.steady`): its hours see no more of a point than the minute of the day, and its
days and months no more than the day, which ends with a minute too. So the points that a search
passes over, in the first minute, between two starts and behind the last one, are decided by the
starts that it has looked at (`SteadyInMinutes.firstMinuteAfter_spec`). -/

namespace RoadRules

open Calendar

/-! ## Minutes of the calendar -/

namespace Calendar.LocalTime

variable {t u : LocalTime} {h : Int}

/-- The number of whole minutes before the point. -/
def minuteNumber (t : LocalTime) : Nat := t.micros / microsPerMinute

theorem dayNumber_eq (t : LocalTime) : t.dayNumber = t.minuteNumber / minutesPerDay := by
  have hday : microsPerDay = microsPerMinute * minutesPerDay := by decide
  unfold dayNumber minuteNumber
  rw [hday, Nat.div_div_eq_div_mul]

theorem minutes_time (t : LocalTime) : t.time.minutes = t.minuteNumber % minutesPerDay := by
  have hday : microsPerDay = microsPerMinute * minutesPerDay := by decide
  show t.micros % microsPerDay / microsPerMinute = t.micros / microsPerMinute % minutesPerDay
  rw [hday, Nat.mod_mul_right_div_self]

theorem micros_startOfMinute (t : LocalTime) :
    t.startOfMinute.micros = t.micros - t.micros % microsPerMinute := rfl

/-- The start of a minute is a whole number of minutes. -/
theorem startOfMinute_mod (t : LocalTime) : t.startOfMinute.micros % microsPerMinute = 0 := by
  rw [micros_startOfMinute]
  unfold microsPerMinute
  omega

/-- A minute reaches beyond each of its points. -/
theorem lt_startOfMinute_add (t : LocalTime) :
    t.micros < t.startOfMinute.micros + microsPerMinute := by
  rw [micros_startOfMinute]
  unfold microsPerMinute
  omega

theorem ofMicros?_eq_some {n : Nat} : ofMicros? n = some t ↔ t.micros = n := by
  unfold ofMicros?
  constructor
  · intro hsome
    split at hsome
    · cases hsome
      rfl
    · cases hsome
  · rintro rfl
    rw [dif_pos t.micros_lt]

theorem nextMinute?_eq_some : t.nextMinute? = some u ↔ u.micros = t.micros + microsPerMinute :=
  ofMicros?_eq_some

theorem add?_eq_some : t.add? h = some u ↔ (u.micros : Int) = t.micros + h := by
  unfold add?
  dsimp only
  split
  · simp only [reduceCtorEq, false_iff]
    omega
  · rw [ofMicros?_eq_some]
    omega

/-- A point that a calculation leads to is in the calendar. -/
theorem exists_add? (hfirst : 0 ≤ t.micros + h) (hlast : t.micros + h < calendarMicros) :
    ∃ u, t.add? h = some u ∧ (u.micros : Int) = t.micros + h := by
  have hsum : ((t.micros + h).toNat : Int) = t.micros + h := Int.toNat_of_nonneg hfirst
  exact ⟨⟨(t.micros + h).toNat, by omega⟩, add?_eq_some.mpr hsum, hsum⟩

/-- The point on a day of the calendar at a number of microseconds since the start of the day. -/
def onDay (day micros : Nat) (hin : day * microsPerDay + micros < calendarMicros) : LocalTime :=
  ⟨_, hin⟩

/-- Whether no point that a search has to look at is outside the calendar: neither the end of the
horizon nor the start of the minute after it, or after the point itself if the horizon ends before
it. -/
def StaysInCalendar (t : LocalTime) (h : Int) : Prop :=
  0 ≤ t.micros + h ∧ t.micros + max 0 h + microsPerMinute < calendarMicros

end Calendar.LocalTime

/-! ## Properties that do not change within a minute -/

/-- A property of points that is the same throughout every minute. -/
def SteadyInMinutes (p : LocalTime → Bool) : Prop :=
  ∀ t u : LocalTime, t.minuteNumber = u.minuteNumber → p t = p u

/-- **A window of whole minutes is steady**: whether it is active does not change within a minute. -/
theorem TimeWindow.IsWhole.steady {w : TimeWindow} (hw : w.IsWhole) :
    SteadyInMinutes w.isActiveAt := by
  intro t u hminute
  have hday : t.dayNumber = u.dayNumber := by
    rw [LocalTime.dayNumber_eq, LocalTime.dayNumber_eq, hminute]
  have hmonth : t.month = u.month := by
    rw [LocalTime.month_eq, LocalTime.month_eq, hday]
  have hweekday : t.weekday = u.weekday := congrArg Date.weekdayOf hday
  have htime : t.time.minutes = u.time.minutes := by
    rw [LocalTime.minutes_time, LocalTime.minutes_time, hminute]
  have hcovers : w.hours.all (·.covers t.time) = w.hours.all (·.covers u.time) := by
    rw [Bool.eq_iff_iff, hw.covers_iff, hw.covers_iff, htime]
  unfold isActiveAt
  rw [hmonth, hweekday, hcovers]

theorem SteadyInMinutes.not {p : LocalTime → Bool} (hp : SteadyInMinutes p) :
    SteadyInMinutes fun t => !p t :=
  fun t u hminute => congrArg (!·) (hp t u hminute)

/-- Whether no point between two numbers of microseconds, the first of them included, has a
property. -/
def NoneBetween (p : LocalTime → Bool) (a b : Nat) : Prop :=
  ∀ u : LocalTime, a ≤ u.micros → u.micros < b → p u = false

/-- **What a search between two numbers of microseconds reports** if it is right: the first point
there that has the property, or nothing if there is none. -/
inductive Found (p : LocalTime → Bool) (a b : Nat) : Option LocalTime → Prop where
  | first {r : LocalTime} : a ≤ r.micros → r.micros < b → p r = true →
      NoneBetween p a r.micros → Found p a b (some r)
  | absent : NoneBetween p a b → Found p a b none

section Search

variable {p : LocalTime → Bool} {a b c : Nat} {t : LocalTime} {o : Option LocalTime} {h : Int}

theorem NoneBetween.append (hab : NoneBetween p a b) (hbc : NoneBetween p b c) :
    NoneBetween p a c := by
  intro u hau huc
  by_cases hub : u.micros < b
  · exact hab u hau hub
  · exact hbc u (by omega) huc

/-- A search can start later if there is nothing to be found before. -/
theorem Found.of_noneBetween (hab : NoneBetween p a b) (hle : a ≤ b) (ho : Found p b c o) :
    Found p a c o := by
  cases ho with
  | first hbr hrc hr hnone => exact .first (by omega) hrc hr (hab.append hnone)
  | absent hnone => exact .absent (hab.append hnone)

/-- A steady property that a point lacks is lacking up to the end of its minute. -/
theorem SteadyInMinutes.noneBetween (hp : SteadyInMinutes p) (ht : p t = false) :
    NoneBetween p t.micros (t.startOfMinute.micros + microsPerMinute) := by
  intro u htu hu
  have hminute : u.minuteNumber = t.minuteNumber := by
    rw [LocalTime.micros_startOfMinute] at hu
    unfold LocalTime.minuteNumber
    unfold microsPerMinute at hu ⊢
    omega
  rw [hp u t hminute, ht]

theorem inCalendar_eq_ok {x : Option LocalTime} : inCalendar x = .ok t ↔ x = some t := by
  cases x with
  | none => simp [inCalendar]
  | some u => simp [inCalendar]

/-- **The starts of minutes decide.** Looking at the start of one minute after the other finds the
first point that has a steady property, if the last start that is looked at is the last one before
the end of the search. -/
theorem SteadyInMinutes.firstMinute_found (hp : SteadyInMinutes p) {count : Nat}
    (hstart : t.micros % microsPerMinute = 0) (hle : b ≤ t.micros + count * microsPerMinute)
    (hlt : t.micros + count * microsPerMinute < b + microsPerMinute)
    (ho : firstMinute p count t = .ok o) : Found p t.micros b o := by
  induction count generalizing t with
  | zero =>
      cases ho
      exact .absent fun u htu hub => by omega
  | succ count ih =>
      rw [Nat.succ_mul] at hle hlt
      rw [firstMinute] at ho
      split at ho
      · rename_i hfound
        cases ho
        exact .first (Nat.le_refl _) (by omega) hfound fun u htu hut => by omega
      · rename_i hlacks
        obtain ⟨next, hnext, ho⟩ := bind_eq_ok.mp ho
        have hmicros := LocalTime.nextMinute?_eq_some.mp (inCalendar_eq_ok.mp hnext)
        -- The minute of a start reaches up to the next start.
        have hminute : NoneBetween p t.micros next.micros := by
          have hnone := hp.noneBetween (Bool.eq_false_iff.mpr hlacks)
          rwa [LocalTime.micros_startOfMinute, hstart, Nat.sub_zero, ← hmicros] at hnone
        have hrest : Found p next.micros b o := by
          apply ih _ (by omega) (by omega) ho
          rw [hmicros, Nat.add_mod_right, hstart]
        exact hrest.of_noneBetween hminute (by omega)

/-- **A search over the minutes after a point is exact** for a steady property that the point lacks:
it finds the first point within the horizon that has the property. -/
theorem SteadyInMinutes.firstMinuteAfter_found (hp : SteadyInMinutes p) (ht : p t = false)
    (ho : firstMinuteAfter p t h = .ok o) :
    ∃ limit : LocalTime, (limit.micros : Int) = t.micros + h ∧
      Found p t.micros (limit.micros + 1) o := by
  unfold firstMinuteAfter at ho
  obtain ⟨first, hfirst, ho⟩ := bind_eq_ok.mp ho
  obtain ⟨limit, hlimit, ho⟩ := bind_eq_ok.mp ho
  have hmicros := LocalTime.nextMinute?_eq_some.mp (inCalendar_eq_ok.mp hfirst)
  have hminute : NoneBetween p t.micros first.micros := hmicros ▸ hp.noneBetween ht
  have hafter : t.micros < first.micros := hmicros ▸ t.lt_startOfMinute_add
  refine ⟨limit, LocalTime.add?_eq_some.mp (inCalendar_eq_ok.mp hlimit), ?_⟩
  split at ho
  · rename_i hbefore
    cases ho
    exact .absent fun u htu hul => hminute u htu (by omega)
  · rename_i hwithin
    have hstart : first.micros % microsPerMinute = 0 := by
      rw [hmicros, Nat.add_mod_right, t.startOfMinute_mod]
    -- The last of the starts that are looked at is the last one up to the limit.
    have hcount := Nat.div_add_mod' (limit.micros - first.micros) microsPerMinute
    have hmod : (limit.micros - first.micros) % microsPerMinute < microsPerMinute :=
      Nat.mod_lt _ (by decide)
    have hrest : Found p first.micros (limit.micros + 1) o := by
      apply hp.firstMinute_found hstart _ _ ho
      · rw [Nat.succ_mul]
        omega
      · rw [Nat.succ_mul]
        omega
    exact hrest.of_noneBetween hminute (by omega)

/-! ## Searches that stay in the calendar -/

theorem LocalTime.exists_nextMinute (hstays : t.micros + microsPerMinute < calendarMicros) :
    ∃ u, t.nextMinute? = some u ∧ u.micros = t.micros + microsPerMinute :=
  ⟨⟨t.micros + microsPerMinute, hstays⟩, LocalTime.nextMinute?_eq_some.mpr rfl, rfl⟩

theorem firstMinute_ok {count : Nat}
    (hstays : t.micros + count * microsPerMinute < calendarMicros) :
    ∃ o, firstMinute p count t = .ok o := by
  induction count generalizing t with
  | zero => exact ⟨none, rfl⟩
  | succ count ih =>
      rw [Nat.succ_mul] at hstays
      obtain ⟨next, hnext, hmicros⟩ := LocalTime.exists_nextMinute (t := t) (by omega)
      rw [firstMinute]
      split
      · exact ⟨some t, rfl⟩
      · rw [inCalendar_eq_ok.mpr hnext, ok_bind]
        exact ih (by omega)

theorem firstMinuteAfter_ok (hstays : t.StaysInCalendar h) :
    ∃ o, firstMinuteAfter p t h = .ok o := by
  obtain ⟨hlimit, hlast⟩ := hstays
  have hstart : t.startOfMinute.micros ≤ t.micros := Nat.sub_le ..
  obtain ⟨first, hfirst, hmicros⟩ := LocalTime.exists_nextMinute (t := t.startOfMinute) (by omega)
  obtain ⟨limit, hend, hsum⟩ := LocalTime.exists_add? hlimit (by omega)
  unfold firstMinuteAfter
  rw [inCalendar_eq_ok.mpr hfirst, ok_bind, inCalendar_eq_ok.mpr hend, ok_bind]
  split
  · exact ⟨none, rfl⟩
  · have hcount := Nat.div_mul_le_self (limit.micros - first.micros) microsPerMinute
    apply firstMinute_ok
    rw [Nat.succ_mul]
    omega

end Search

/-! ## When a window becomes active and when it stops -/

namespace TimeWindow

/-- **When a window is first active** from a point on, as far as a horizon reaches. -/
structure IsNextActivation (w : TimeWindow) (t : LocalTime) (h : Int) (r : LocalTime) : Prop where
  le : t.micros ≤ r.micros
  active : w.isActiveAt r = true
  /-- The point itself is not subject to the horizon, which may end before it. -/
  within : r = t ∨ (r.micros : Int) ≤ t.micros + h
  first : ∀ u : LocalTime, t.micros ≤ u.micros → u.micros < r.micros → w.isActiveAt u = false

/-- **When a window that is active at a point is first inactive** after it, as far as a horizon
reaches. -/
structure IsActivationEnd (w : TimeWindow) (t : LocalTime) (h : Int) (e : LocalTime) : Prop where
  lt : t.micros < e.micros
  within : (e.micros : Int) ≤ t.micros + h
  active : ∀ u : LocalTime, t.micros ≤ u.micros → u.micros < e.micros → w.isActiveAt u = true
  ended : w.isActiveAt e = false

variable {w : TimeWindow} {t : LocalTime} {h : Int} {o : Option LocalTime}

theorem nextActivation_ok (hstays : t.StaysInCalendar h) : ∃ o, w.nextActivation t h = .ok o := by
  unfold nextActivation
  split
  · exact ⟨some t, rfl⟩
  · exact firstMinuteAfter_ok hstays

theorem activationEnd_ok (hstays : t.StaysInCalendar h) : ∃ o, w.activationEnd t h = .ok o := by
  unfold activationEnd
  split
  · exact firstMinuteAfter_ok hstays
  · exact ⟨none, rfl⟩

theorem IsWhole.nextActivation_found (hw : w.IsWhole) (ho : w.nextActivation t h = .ok o) :
    (∀ r, o = some r → w.IsNextActivation t h r) ∧
      (o = none → ∀ u : LocalTime, t.micros ≤ u.micros → (u.micros : Int) ≤ t.micros + h →
        w.isActiveAt u = false) := by
  unfold nextActivation at ho
  split at ho
  · rename_i hactive
    cases ho
    refine ⟨fun r hr => ?_, nofun⟩
    cases hr
    exact ⟨Nat.le_refl _, hactive, Or.inl rfl, fun u htu hut => by omega⟩
  · rename_i hinactive
    obtain ⟨limit, hlimit, hfound⟩ :=
      hw.steady.firstMinuteAfter_found (Bool.eq_false_iff.mpr hinactive) ho
    cases hfound with
    | first hle hlt hactive hnone =>
        refine ⟨fun r hr => ?_, nofun⟩
        cases hr
        exact ⟨hle, hactive, Or.inr (by omega), hnone⟩
    | absent hnone => exact ⟨nofun, fun _ u htu hul => hnone u htu (by omega)⟩

theorem IsWhole.activationEnd_found (hw : w.IsWhole) (ho : w.activationEnd t h = .ok o) :
    (∀ e, o = some e → w.IsActivationEnd t h e) ∧
      (o = none → w.isActiveAt t = false ∨
        ∀ u : LocalTime, t.micros ≤ u.micros → (u.micros : Int) ≤ t.micros + h →
          w.isActiveAt u = true) := by
  unfold activationEnd at ho
  split at ho
  · rename_i hactive
    have hlacks : (!w.isActiveAt t) = false := by
      rw [hactive, Bool.not_true]
    obtain ⟨limit, hlimit, hfound⟩ := hw.steady.not.firstMinuteAfter_found hlacks ho
    have hkeeps : ∀ {b : Nat}, NoneBetween (fun u => !w.isActiveAt u) t.micros b →
        ∀ u : LocalTime, t.micros ≤ u.micros → u.micros < b → w.isActiveAt u = true :=
      fun hnone u htu hub => by simpa using hnone u htu hub
    cases hfound with
    | @first e hle hlt hover hnone =>
        have hne : t.micros ≠ e.micros := fun heq => by
          rw [← LocalTime.ext heq, hactive] at hover
          cases hover
        refine ⟨fun e' he => ?_, nofun⟩
        cases he
        exact ⟨by omega, by omega, hkeeps hnone, by simpa using hover⟩
    | absent hnone => exact ⟨nofun, fun _ => Or.inr fun u htu hul => hkeeps hnone u htu (by omega)⟩
  · rename_i hinactive
    cases ho
    exact ⟨nofun, fun _ => Or.inl (Bool.eq_false_iff.mpr hinactive)⟩

/-- **The search for an activation is exact.** If it reports a moment, that is when the window is
first active, to the microsecond; if it reports none, the window is not active at any point up to
the end of the horizon. It does report one or the other unless it leaves the calendar. -/
theorem nextActivationOf_exact (hw : w.IsWhole) (m : Moment) (h : Int) :
    (∀ r, w.nextActivationOf m h = .ok (some r) →
      r.offset = m.offset ∧ w.IsNextActivation m.wall h r.wall) ∧
    (w.nextActivationOf m h = .ok none → ∀ u : LocalTime, m.wall.micros ≤ u.micros →
      (u.micros : Int) ≤ m.wall.micros + h → w.isActiveAt u = false) ∧
    (m.wall.StaysInCalendar h → ∃ o, w.nextActivationOf m h = .ok o) := by
  unfold nextActivationOf
  refine ⟨fun r hr => ?_, fun hnone => ?_, fun hstays => ?_⟩
  · obtain ⟨o, ho, hr⟩ := map_eq_ok.mp hr
    obtain ⟨wall, rfl, rfl⟩ := Option.map_eq_some_iff.mp hr
    exact ⟨rfl, (hw.nextActivation_found ho).1 wall rfl⟩
  · obtain ⟨o, ho, hnone⟩ := map_eq_ok.mp hnone
    exact (hw.nextActivation_found ho).2 (Option.map_eq_none_iff.mp hnone)
  · obtain ⟨o, ho⟩ := nextActivation_ok (w := w) hstays
    exact ⟨_, map_eq_ok.mpr ⟨o, ho, rfl⟩⟩

/-- A window for the nights of working days. -/
def weekNights : TimeWindow :=
  ⟨.range .monday .friday, .empty, some ⟨.ofMicros (22 * 3600000000), .ofMicros (6 * 3600000000)⟩⟩

theorem weekNights_isWhole : weekNights.IsWhole := by
  intro h hhours
  cases hhours
  exact ⟨by decide, by decide⟩

/-- A moment on a Sunday, a microsecond less than ninety seconds before midnight. -/
def lateSunday : Moment := ⟨.onDay 738807 86310000001 (by decide), none⟩

/-- The end of that Sunday. -/
def startOfMonday : Moment := ⟨.onDay 738808 0 (by decide), none⟩

theorem nextActivationOf_exact_monday :
    lateSunday.wall.StaysInCalendar activationHorizon ∧
      weekNights.nextActivationOf lateSunday activationHorizon = .ok (some startOfMonday) ∧
      weekNights.IsNextActivation lateSunday.wall activationHorizon startOfMonday.wall := by
  have hmonday : weekNights.nextActivationOf lateSunday activationHorizon =
      .ok (some startOfMonday) := by decide +kernel
  exact ⟨⟨by decide +kernel, by decide +kernel⟩, hmonday,
    ((nextActivationOf_exact weekNights_isWhole _ _).1 _ hmonday).2⟩

/-- **The search for the end of an activation is exact.** If it reports a moment, the window is
active from the moment that is asked about up to that one, to the microsecond, and not then; if it
reports none, the window is not active, or stays so up to the end of the horizon. It does report one
or the other unless it leaves the calendar. -/
theorem activationEndOf_exact (hw : w.IsWhole) (m : Moment) (h : Int) :
    (∀ e, w.activationEndOf m h = .ok (some e) →
      e.offset = m.offset ∧ w.IsActivationEnd m.wall h e.wall) ∧
    (w.activationEndOf m h = .ok none → w.isActiveAt m.wall = false ∨
      ∀ u : LocalTime, m.wall.micros ≤ u.micros → (u.micros : Int) ≤ m.wall.micros + h →
        w.isActiveAt u = true) ∧
    (m.wall.StaysInCalendar h → ∃ o, w.activationEndOf m h = .ok o) := by
  unfold activationEndOf
  refine ⟨fun e he => ?_, fun hnone => ?_, fun hstays => ?_⟩
  · obtain ⟨o, ho, he⟩ := map_eq_ok.mp he
    obtain ⟨wall, rfl, rfl⟩ := Option.map_eq_some_iff.mp he
    exact ⟨rfl, (hw.activationEnd_found ho).1 wall rfl⟩
  · obtain ⟨o, ho, hnone⟩ := map_eq_ok.mp hnone
    exact (hw.activationEnd_found ho).2 (Option.map_eq_none_iff.mp hnone)
  · obtain ⟨o, ho⟩ := activationEnd_ok (w := w) hstays
    exact ⟨_, map_eq_ok.mpr ⟨o, ho, rfl⟩⟩

/-- A moment on a Friday, ninety seconds before midnight. -/
def lateFriday : Moment := ⟨.onDay 738805 86310000000 (by decide), none⟩

/-- The end of that Friday, at which the days of the window are over but not its hours. -/
def startOfSaturday : Moment := ⟨.onDay 738806 0 (by decide), none⟩

theorem activationEndOf_exact_saturday :
    lateFriday.wall.StaysInCalendar endHorizon ∧
      weekNights.activationEndOf lateFriday endHorizon = .ok (some startOfSaturday) ∧
      weekNights.IsActivationEnd lateFriday.wall endHorizon startOfSaturday.wall := by
  have hsaturday : weekNights.activationEndOf lateFriday endHorizon =
      .ok (some startOfSaturday) := by decide +kernel
  exact ⟨⟨by decide +kernel, by decide +kernel⟩, hsaturday,
    ((activationEndOf_exact weekNights_isWhole _ _).1 _ hsaturday).2⟩

end TimeWindow

end RoadRules
