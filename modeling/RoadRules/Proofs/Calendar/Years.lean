import Mathlib.Data.List.Basic
import RoadRules.Calendar.Date

set_option autoImplicit false

/-! # Years and months of the calendar

A number of days is taken apart by the lengths of the cycles of years, and what is left of it by the
lengths of the months. That gives back the date that the number belongs to
(`Date.ofDayNumber_dayNumber`): the cycles and the months before a date are as long as they are
counted. -/

namespace RoadRules.Calendar

namespace Date

/-- The number of days in a year. -/
def yearLength (leap : Bool) : Nat := if leap then 366 else 365

/-! ## The year -/

theorem isLeap_iff {y : Nat} : isLeap y = true ↔ y % 4 = 0 ∧ (y % 100 ≠ 0 ∨ y % 400 = 0) := by
  simp [isLeap]

section Cycles

variable {a b c d : Nat}

/-- A year has its place in the cycles of four hundred, one hundred and four years. -/
theorem exists_cycles {y : Nat} (hy : 1 ≤ y) :
    ∃ a b c d, b < 4 ∧ c < 25 ∧ d < 4 ∧ y = 400 * a + 100 * b + 4 * c + d + 1 :=
  ⟨(y - 1) / 400, (y - 1) % 400 / 100, (y - 1) % 100 / 4, (y - 1) % 4, by omega, by omega,
    by omega, by omega⟩

theorem isLeap_cycles (hb : b < 4) (hc : c < 25) (hd : d < 4) :
    isLeap (400 * a + 100 * b + 4 * c + d + 1) = true ↔ d = 3 ∧ (c < 24 ∨ b = 3) := by
  rw [isLeap_iff]
  omega

theorem yearLength_cycles (hb : b < 4) (hc : c < 25) (hd : d < 4) :
    yearLength (isLeap (400 * a + 100 * b + 4 * c + d + 1)) =
      if d = 3 ∧ (c < 24 ∨ b = 3) then 366 else 365 := by
  simp only [yearLength, isLeap_cycles hb hc hd]

theorem daysBeforeYear_cycles (hb : b < 4) (hc : c < 25) (hd : d < 4) :
    daysBeforeYear (400 * a + 100 * b + 4 * c + d + 1) =
      146097 * a + 36524 * b + 1461 * c + 365 * d := by
  unfold daysBeforeYear
  dsimp only
  omega

end Cycles

/-- **The years are as long as they are counted.** -/
theorem daysBeforeYear_succ {y : Nat} (hy : 1 ≤ y) :
    daysBeforeYear (y + 1) = daysBeforeYear y + yearLength (isLeap y) := by
  obtain ⟨a, b, c, d, hb, hc, hd, rfl⟩ := exists_cycles hy
  rw [daysBeforeYear_cycles hb hc hd, yearLength_cycles hb hc hd]
  -- The next year may begin a cycle of each kind.
  have hcarry : d < 3 ∨ d = 3 ∧ (c < 24 ∨ c = 24 ∧ (b < 3 ∨ b = 3)) := by omega
  rcases hcarry with hd | ⟨rfl, hc | ⟨rfl, hb | rfl⟩⟩
  · have hyear : 400 * a + 100 * b + 4 * c + d + 1 + 1 =
        400 * a + 100 * b + 4 * c + (d + 1) + 1 := by omega
    rw [hyear, daysBeforeYear_cycles hb hc (by omega), if_neg (by omega)]
    omega
  · have hyear : 400 * a + 100 * b + 4 * c + 3 + 1 + 1 =
        400 * a + 100 * b + 4 * (c + 1) + 0 + 1 := by omega
    rw [hyear, daysBeforeYear_cycles (d := 0) hb (by omega) (by omega), if_pos (by omega)]
    omega
  · have hyear : 400 * a + 100 * b + 4 * 24 + 3 + 1 + 1 =
        400 * a + 100 * (b + 1) + 4 * 0 + 0 + 1 := by omega
    rw [hyear, daysBeforeYear_cycles (c := 0) (d := 0) (by omega) (by omega) (by omega),
      if_neg (by omega)]
    omega
  · have hyear : 400 * a + 100 * 3 + 4 * 24 + 3 + 1 + 1 =
        400 * (a + 1) + 100 * 0 + 4 * 0 + 0 + 1 := by omega
    rw [hyear, daysBeforeYear_cycles (b := 0) (c := 0) (d := 0) (by omega) (by omega) (by omega),
      if_pos (by omega)]
    omega

theorem yearAt_daysBeforeYear_add {y r : Nat} (hy : 1 ≤ y) (hr : r < yearLength (isLeap y)) :
    yearAt (daysBeforeYear y + r) = (y, r) := by
  obtain ⟨a, b, c, d, hb, hc, hd, rfl⟩ := exists_cycles hy
  have hleap := isLeap_cycles (a := a) hb hc hd
  have hlast : r < 365 ∨ r = 365 ∧ d = 3 ∧ (c < 24 ∨ b = 3) := by
    unfold yearLength at hr
    split at hr
    · rename_i htrue
      have hcycles := hleap.mp htrue
      omega
    · omega
  rw [daysBeforeYear_cycles hb hc hd]
  unfold yearAt
  dsimp only
  -- The last day of a cycle is one more than its parts have, and stays in the last of them.
  have h₁ : (146097 * a + 36524 * b + 1461 * c + 365 * d + r) / 146097 = a := by omega
  have h₂ : (146097 * a + 36524 * b + 1461 * c + 365 * d + r) % 146097 =
      36524 * b + 1461 * c + 365 * d + r := by omega
  have h₃ : min ((36524 * b + 1461 * c + 365 * d + r) / 36524) 3 = b := by omega
  have h₄ : 36524 * b + 1461 * c + 365 * d + r - 36524 * b = 1461 * c + 365 * d + r := by omega
  have h₅ : (1461 * c + 365 * d + r) / 1461 = c := by omega
  have h₆ : (1461 * c + 365 * d + r) % 1461 = 365 * d + r := by omega
  have h₇ : min ((365 * d + r) / 365) 3 = d := by omega
  rw [h₁, h₂, h₃, h₄, h₅, h₆, h₇, Nat.add_sub_cancel_left]

/-! ## The month -/

/-- A day behind some months falls into what follows them. -/
theorem monthAt_append (leap : Bool) (before after : List Month) (k : Nat) :
    monthAt leap (before ++ after) ((before.map (Month.length leap)).foldr (· + ·) 0 + k) =
      monthAt leap after k := by
  induction before with
  | nil => exact congrArg (monthAt leap after) (Nat.zero_add k)
  | cons m rest ih =>
      rw [List.map_cons, List.foldr_cons, List.cons_append, monthAt, if_neg (by omega),
        Nat.add_assoc, Nat.add_sub_cancel_left, ih]

/-- The months of a year in front of one, and those behind it. -/
theorem exists_year_eq (m : Month) :
    ∃ after, Month.year = Month.year.takeWhile (· != m) ++ m :: after := by
  cases m <;> exact ⟨_, rfl⟩

theorem monthAt_daysBeforeMonth_add {leap : Bool} {m : Month} {k : Nat} (hk : k < m.length leap) :
    monthAt leap Month.year (daysBeforeMonth leap m + k) = (m, k + 1) := by
  obtain ⟨after, hyear⟩ := exists_year_eq m
  calc monthAt leap Month.year (daysBeforeMonth leap m + k)
      = monthAt leap (Month.year.takeWhile (· != m) ++ m :: after)
          (daysBeforeMonth leap m + k) := by rw [← hyear]
    _ = monthAt leap (m :: after) k := monthAt_append ..
    _ = (m, k + 1) := by rw [monthAt, if_pos hk]

/-- A month ends with the year at the latest. -/
theorem daysBeforeMonth_add_length_le (leap : Bool) (m : Month) :
    daysBeforeMonth leap m + m.length leap ≤ yearLength leap := by
  cases leap <;> cases m <;> decide

/-! ## The date -/

/-- The date of a day of a month. -/
theorem ofDayNumber_add {y k : Nat} {m : Month} (hy : 1 ≤ y) (hk : k < m.length (isLeap y)) :
    ofDayNumber (daysBeforeYear y + daysBeforeMonth (isLeap y) m + k) = ⟨y, m, k + 1⟩ := by
  have hlength := daysBeforeMonth_add_length_le (isLeap y) m
  unfold ofDayNumber
  rw [Nat.add_assoc, yearAt_daysBeforeYear_add hy (by omega)]
  dsimp only
  rw [monthAt_daysBeforeMonth_add hk]

/-- **The number of a date leads back to the date.** -/
theorem ofDayNumber_dayNumber {d : Date} (h : d.isValid = true) : ofDayNumber d.dayNumber = d := by
  simp only [isValid, Bool.and_eq_true, decide_eq_true_eq] at h
  obtain ⟨⟨⟨hyear, -⟩, hday⟩, hlength⟩ := h
  unfold dayNumber
  rw [ofDayNumber_add hyear (by omega), Nat.sub_add_cancel hday]

/-! ## The months as they come -/

/-- The number of the first day of a month. -/
def firstOf (y : Nat) (m : Month) : Nat := daysBeforeYear y + daysBeforeMonth (isLeap y) m

/-- The first day of a month comes again after a year. -/
theorem firstOf_succ {y : Nat} (hy : 1 ≤ y) (m : Month) :
    firstOf y m < firstOf (y + 1) m ∧ firstOf (y + 1) m ≤ firstOf y m + 366 := by
  have hleapDay : daysBeforeMonth false m ≤ daysBeforeMonth true m ∧
      daysBeforeMonth true m ≤ daysBeforeMonth false m + 1 := by cases m <;> decide
  unfold firstOf
  rw [daysBeforeYear_succ hy]
  -- Only one of two years in a row has a leap day.
  cases hthis : isLeap y with
  | false =>
      unfold yearLength
      rw [if_neg (by decide)]
      cases isLeap (y + 1) <;> omega
  | true =>
      have hnext : isLeap (y + 1) = false := by
        rw [isLeap_iff] at hthis
        rw [Bool.eq_false_iff, ne_eq, isLeap_iff]
        omega
      rw [hnext]
      unfold yearLength
      rw [if_pos rfl]
      omega

/-- **A month begins within a year** from any day on. -/
theorem exists_firstOf (n : Nat) (m : Month) :
    ∃ y, 1 ≤ y ∧ n ≤ firstOf y m ∧ firstOf y m ≤ n + 365 := by
  induction n with
  | zero =>
      have hfirst : firstOf 1 m ≤ 365 := by cases m <;> decide
      exact ⟨1, Nat.le_refl 1, Nat.zero_le _, by omega⟩
  | succ n ih =>
      obtain ⟨y, hy, hle, hwithin⟩ := ih
      have hnext := firstOf_succ hy m
      rcases Nat.lt_or_eq_of_le hle with hlt | heq
      · exact ⟨y, hy, hlt, by omega⟩
      · exact ⟨y + 1, by omega, by omega, by omega⟩

end Date

end RoadRules.Calendar
