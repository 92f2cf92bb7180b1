import RoadRules.Proofs.Calendar.Days

set_option autoImplicit false

/-! # Points of the calendar by date and time

Every number of days in the calendar is the number of a date (`Date.exists_dayNumber_eq`), and so a
point of the calendar is the same as a date and a time of day (`LocalTime.ofDate?_date_time`,
`LocalTime.exists_ofDate?`). -/

namespace RoadRules.Calendar

namespace Date

variable {n r y : Nat} {leap : Bool}

theorem yearLength_pos (leap : Bool) : 0 < yearLength leap := by
  cases leap <;> decide

/-- Every number of days falls into a year. -/
theorem exists_year (n : Nat) :
    ∃ y r, 1 ≤ y ∧ r < yearLength (isLeap y) ∧ n = daysBeforeYear y + r := by
  induction n with
  | zero => exact ⟨1, 0, Nat.le_refl 1, by decide, rfl⟩
  | succ n ih =>
      obtain ⟨y, r, hy, hr, rfl⟩ := ih
      rcases Nat.lt_or_eq_of_le (Nat.succ_le_of_lt hr) with hlt | heq
      · exact ⟨y, r + 1, hy, hlt, rfl⟩
      · refine ⟨y + 1, 0, by omega, yearLength_pos _, ?_⟩
        rw [daysBeforeYear_succ hy]
        omega

/-- A day of a list of months falls into one of them. -/
theorem exists_month_of_lt {l : List Month}
    (h : r < (l.map (Month.length leap)).foldr (· + ·) 0) :
    ∃ before m after k, l = before ++ m :: after ∧ k < m.length leap ∧
      r = (before.map (Month.length leap)).foldr (· + ·) 0 + k := by
  induction l generalizing r with
  | nil => exact absurd h (Nat.not_lt_zero r)
  | cons m rest ih =>
      rw [List.map_cons, List.foldr_cons] at h
      by_cases hr : r < m.length leap
      · exact ⟨[], m, rest, r, rfl, hr, (Nat.zero_add r).symm⟩
      · obtain ⟨before, q, after, k, rfl, hk, hrest⟩ :=
          ih (by omega : r - m.length leap < (rest.map (Month.length leap)).foldr (· + ·) 0)
        refine ⟨m :: before, q, after, k, rfl, hk, ?_⟩
        rw [List.map_cons, List.foldr_cons]
        omega

/-- Every day of a year falls into a month. -/
theorem exists_month (h : r < yearLength leap) :
    ∃ m k, k < Month.length leap m ∧ r = daysBeforeMonth leap m + k := by
  have htotal : (Month.year.map (Month.length leap)).foldr (· + ·) 0 = yearLength leap := by
    cases leap <;> rfl
  rw [← htotal] at h
  obtain ⟨before, m, after, k, hyear, hk, hr⟩ := exists_month_of_lt h
  have hnodup : (before ++ m :: after).Nodup := hyear ▸ NamedCycle.nodup
  have hbefore : Month.year.takeWhile (· != m) = before := by
    have hne : ∀ q ∈ before, (q != m) = true := by
      intro q hq
      rw [bne_iff_ne]
      rintro rfl
      exact (List.nodup_append.mp hnodup).2.2 q hq q List.mem_cons_self rfl
    rw [hyear, List.takeWhile_append_of_pos hne]
    simp
  refine ⟨m, k, hk, ?_⟩
  unfold daysBeforeMonth
  rw [hbefore, hr]

theorem daysBeforeYear_mono {x : Nat} (hx : 1 ≤ x) (h : x ≤ y) :
    daysBeforeYear x ≤ daysBeforeYear y := by
  induction h with
  | refl => exact Nat.le_refl _
  | step h ih =>
      rw [daysBeforeYear_succ (Nat.le_trans hx h)]
      exact Nat.le_add_right_of_le ih

/-- The calendar has the days before the year that would follow its last. -/
theorem totalDays_eq : totalDays = daysBeforeYear (lastYear + 1) := rfl

/-- The days of a date are in the calendar. -/
theorem dayNumber_lt {d : Date} (h : d.isValid = true) : d.dayNumber < totalDays := by
  simp only [isValid, Bool.and_eq_true, decide_eq_true_eq] at h
  obtain ⟨⟨⟨hyear, hlast⟩, hday⟩, hlength⟩ := h
  have hmonth := daysBeforeMonth_add_length_le (isLeap d.year) d.month
  have hnext := daysBeforeYear_succ hyear
  have hend : daysBeforeYear (d.year + 1) ≤ daysBeforeYear (lastYear + 1) :=
    daysBeforeYear_mono (by omega) (Nat.succ_le_succ hlast)
  rw [totalDays_eq]
  unfold dayNumber
  omega

/-- **Every number of days in the calendar** is the number of a date. -/
theorem exists_dayNumber_eq (h : n < totalDays) :
    ∃ d : Date, d.isValid = true ∧ d.dayNumber = n := by
  obtain ⟨y, r, hy, hr, rfl⟩ := exists_year n
  obtain ⟨m, k, hk, rfl⟩ := exists_month hr
  have hlast : y ≤ lastYear := by
    by_contra hlate
    have hmono : daysBeforeYear (lastYear + 1) ≤ daysBeforeYear y :=
      daysBeforeYear_mono (by decide) (by omega)
    rw [totalDays_eq] at h
    omega
  refine ⟨⟨y, m, k + 1⟩, ?_, ?_⟩
  · simp only [isValid, Bool.and_eq_true, decide_eq_true_eq]
    exact ⟨⟨⟨hy, hlast⟩, Nat.le_add_left 1 k⟩, hk⟩
  · unfold dayNumber
    rw [Nat.add_sub_cancel, Nat.add_assoc]

theorem isValid_ofDayNumber (h : n < totalDays) : (ofDayNumber n).isValid = true := by
  obtain ⟨d, hd, rfl⟩ := exists_dayNumber_eq h
  rwa [ofDayNumber_dayNumber hd]

theorem dayNumber_ofDayNumber (h : n < totalDays) : (ofDayNumber n).dayNumber = n := by
  obtain ⟨d, hd, rfl⟩ := exists_dayNumber_eq h
  rw [ofDayNumber_dayNumber hd]

end Date

namespace LocalTime

theorem dayNumber_lt (t : LocalTime) : t.dayNumber < totalDays := by
  apply Nat.div_lt_of_lt_mul
  rw [Nat.mul_comm]
  exact t.micros_lt

theorem isValid_date (t : LocalTime) : t.date.isValid = true :=
  Date.isValid_ofDayNumber t.dayNumber_lt

/-- **A point of the calendar** is at its date and time. -/
theorem ofDate?_date_time (t : LocalTime) : ofDate? t.date t.time = some t := by
  have hmicros : t.date.dayNumber * microsPerDay + t.time.micros = t.micros := by
    show (Date.ofDayNumber t.dayNumber).dayNumber * microsPerDay + t.micros % microsPerDay = _
    rw [Date.dayNumber_ofDayNumber t.dayNumber_lt]
    exact Nat.div_add_mod' ..
  unfold ofDate? ofMicros?
  rw [if_pos t.isValid_date, hmicros, dif_pos t.micros_lt]

/-- **Every date and time** are those of a point of the calendar. -/
theorem exists_ofDate? {d : Date} (h : d.isValid = true) (s : TimeOfDay) :
    ∃ t : LocalTime, ofDate? d s = some t ∧ t.date = d ∧ t.time = s := by
  have hmicros : d.dayNumber * microsPerDay + s.micros < calendarMicros := by
    have hday := Date.dayNumber_lt h
    have hs := s.micros_lt
    unfold calendarMicros
    calc d.dayNumber * microsPerDay + s.micros
        < d.dayNumber * microsPerDay + microsPerDay := Nat.add_lt_add_left hs _
      _ = (d.dayNumber + 1) * microsPerDay := (Nat.succ_mul _ _).symm
      _ ≤ totalDays * microsPerDay := Nat.mul_le_mul_right _ hday
  obtain ⟨t, ht⟩ : ∃ t : LocalTime, t.micros = d.dayNumber * microsPerDay + s.micros :=
    ⟨⟨_, hmicros⟩, rfl⟩
  refine ⟨t, ?_, ?_, time_of_micros_eq ht⟩
  · unfold ofDate? ofMicros?
    rw [if_pos h, dif_pos hmicros]
    exact congrArg some (LocalTime.ext ht.symm)
  · show Date.ofDayNumber t.dayNumber = d
    rw [dayNumber_of_micros_eq ht, Date.ofDayNumber_dayNumber h]

end LocalTime

end RoadRules.Calendar
