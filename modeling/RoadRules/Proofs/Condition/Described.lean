import RoadRules.Proofs.Calendar.Clock
import RoadRules.Proofs.Calendar.Runs
import RoadRules.Proofs.Condition.Complete
import RoadRules.Proofs.Number.Rational
import RoadRules.Proofs.Text.Digits
import RoadRules.Proofs.Window.Overlap
import RoadRules.Window.Named

set_option autoImplicit false

/-! # A description is read back

A window describes itself in words that a condition may use. The description of a window is the text
of a schedule of the grammar: its runs of months and days are spans, and its hours are written with
two digits each, with 24:00 for an end at midnight. What is read back from a tag with descriptions is
therefore what they describe (`Restriction.read_described`). -/

namespace RoadRules

open Text Calendar

/-! ## Times -/

/-- A whole minute is reached after its hours and minutes. -/
theorem Calendar.TimeOfDay.ofMicros_hour_minute {t : TimeOfDay} (h : t.isWholeMinute = true) :
    .ofMicros ((t.hour * 60 + t.minute) * microsPerMinute) = t := by
  have ht := t.micros_lt
  have hminutes : t.hour * 60 + t.minute = t.minutes := by
    unfold hour minute minutes microsPerMinute
    omega
  rw [hminutes, ← micros_of_isWholeMinute h]
  exact TimeOfDay.ext (Nat.mod_eq_of_lt ht)

namespace Condition

theorem isPair_twoDigits {n : Nat} (hn : n < 100) : IsPair (twoDigits n) := by
  obtain ⟨a, b, htext, ha, hb⟩ := exists_twoDigits_eq hn
  exact ⟨a, b, isDecimalDigit_of_isDigit ha, isDecimalDigit_of_isDigit hb, htext⟩

/-- A time written with two digits for the hour and for the minute. -/
def Clock.ofTime (t : TimeOfDay) : Clock where
  hourText := twoDigits t.hour
  hour := t.hour
  isHour := .inl (isPair_twoDigits (t.hour_lt.trans (by decide)))
  reads := natural?_twoDigits t.hour
  minute :=
    { text := twoDigits t.minute
      value := t.minute
      isPair := isPair_twoDigits (t.minute_lt.trans (by decide))
      reads := natural?_twoDigits t.minute
      value_lt := t.minute_lt }
  second := none

theorem Clock.text_ofTime (t : TimeOfDay) : (ofTime t).text = t.shortText := by
  simp [text, secondText, ofTime, TimeOfDay.shortText, Text.ofString]

theorem Clock.time_ofTime {t : TimeOfDay} (h : t.isWholeMinute = true) : (ofTime t).time = t :=
  TimeOfDay.ofMicros_hour_minute h

/-- The end of the day. -/
def Clock.endOfDay : Clock :=
  fullHour '2' '4' 24 ⟨_, _, by decide, by decide, rfl⟩ (by decide)

theorem Clock.isEndOfDay_endOfDay : endOfDay.IsEndOfDay := ⟨rfl, rfl, nofun⟩

/-- A daily range of hours as it is described. -/
def ClockRange.ofHours (h : Hours) : ClockRange where
  start := .ofTime h.start
  start_ofDay := h.start.hour_lt
  before := .none
  after := .none
  stop := if h.stop.micros = 0 ∧ h.start ≠ h.stop then .endOfDay else .ofTime h.stop
  stop_ofDay := by
    split
    · exact Or.inr Clock.isEndOfDay_endOfDay
    · exact Or.inl h.stop.hour_lt

theorem ClockRange.text_ofHours (h : Hours) : (ofHours h).text = h.describe := by
  unfold text ofHours Hours.describe
  rw [Clock.text_ofTime]
  split
  · simp [Gap.none, Text.ofString]
    decide
  · simp [Gap.none, Text.ofString, Clock.text_ofTime]

/-- The range that is described is the range of hours. -/
theorem ClockRange.hours_ofHours {h : Hours} (hh : h.IsWhole) : (ofHours h).hours = h := by
  unfold hours ofHours
  rw [Clock.time_ofTime hh.start]
  split
  · rename_i hmidnight
    rw [Clock.time_endOfDay _ Clock.isEndOfDay_endOfDay]
    exact congrArg (Hours.mk h.start) (TimeOfDay.ext hmidnight.1.symm)
  · rw [Clock.time_ofTime hh.stop]

/-! ## Days and months -/

section Runs

variable {ι : Type} [NamedCycle ι]

/-- A run as a span, without white space. -/
def Span.ofRun (r : ι × ι) : Span ι := if r.1 == r.2 then .one r.1 else .range r.1 .none .none r.2

theorem Span.text_ofRun (r : ι × ι) : (ofRun r).text = Selection.runText r := by
  unfold ofRun Selection.runText
  split
  · rfl
  · simp [text, Gap.none, Text.ofString]

/-- A run holds what the range between its ends holds. -/
theorem Span.holds_ofRun (r : ι × ι) (x : ι) :
    (ofRun r).holds x = (Selection.range r.1 r.2).selects x := by
  unfold ofRun
  split
  · rename_i hends
    rw [← beq_iff_eq.mp hends, Selection.selects_range_self]
    rfl
  · exact (Selection.selects_range ..).symm

end Runs

/-- Items with commas between them and no white space; no items make no list. -/
def Series.ofItems? {τ : Type} : List τ → Option (Series τ)
  | [] => none
  | x :: rest => some ⟨x, rest.map fun y => (.none, .none, y)⟩

namespace Schedule

theorem partItems_ofItems? {τ : Type} (xs : List τ) : partItems (Series.ofItems? xs) = xs := by
  cases xs with
  | nil => rfl
  | cons x rest => simp [Series.ofItems?, partItems, Series.items, Function.comp_def]

theorem partText_ofItems? {τ : Type} (itemText : τ → Text) (xs : List τ) :
    partText itemText (Series.ofItems? xs) = joined [.char ','] (xs.map itemText) := by
  cases xs with
  | nil => rfl
  | cons x rest =>
      show itemText x ++ Series.othersText itemText (rest.map fun y => (.none, .none, y)) = _
      induction rest generalizing x with
      | nil => simp [Series.othersText, joined, List.intercalate]
      | cons y rest ih =>
          have hrest := ih y
          rw [List.map_cons] at hrest
          rw [List.map_cons, List.map_cons, List.map_cons, joined_cons_cons, ← hrest]
          simp [Series.othersText, Gap.none]

end Schedule

section Selections

variable {ι : Type} [NamedCycle ι] {s : Selection ι}

/-- The runs of a selection as a list of spans. -/
def Span.series? (s : Selection ι) : Option (Series (Span ι)) :=
  Series.ofItems? (s.runs.map Span.ofRun)

/-- **The spans of a selection select what it selects.** -/
theorem Schedule.selection_series? (s : Selection ι) : selection (Span.series? s) = s := by
  ext x
  show ((partItems (Span.series? s)).any (Span.holds x)) = s.selects x
  rw [Bool.eq_iff_iff, Selection.selects_iff_exists_run, Span.series?, partItems_ofItems?,
    List.any_map, List.any_eq_true]
  simp only [Function.comp_apply, Span.holds_ofRun]

theorem Schedule.partText_series? (s : Selection ι) :
    partText Span.text (Span.series? s) = s.describe := by
  rw [Span.series?, partText_ofItems?, List.map_map]
  exact congrArg (joined _) (List.map_congr_left fun r _ => Span.text_ofRun r)

/-- No runs are no members. -/
theorem Span.isSome_series? (s : Selection ι) : (Span.series? s).isSome = !s.isEmpty := by
  cases hruns : s.runs with
  | nil => simp [series?, Series.ofItems?, hruns, Selection.runs_eq_nil_iff.mp hruns]
  | cons r rest =>
      have hempty : s.isEmpty = false := by
        rw [Bool.eq_false_iff, ne_eq, ← Selection.runs_eq_nil_iff, hruns]
        exact List.cons_ne_nil r rest
      simp [series?, Series.ofItems?, hruns, hempty]

theorem Span.toList_series? (s : Selection ι) :
    ((Span.series? s).map (Series.text Span.text)).toList =
      if s.isEmpty then [] else [s.describe] := by
  have hsome := isSome_series? s
  rw [← Schedule.partText_series? s]
  cases hseries : series? s with
  | none =>
      rw [hseries] at hsome
      rw [if_pos (by simpa using hsome.symm)]
      rfl
  | some series =>
      rw [hseries] at hsome
      rw [if_neg (by simpa using hsome.symm)]
      rfl

end Selections

end Condition

/-! ## Windows -/

namespace TimeWindow

open Condition

/-- What a window says about itself: that it is in force in all months goes without saying. -/
def said (w : TimeWindow) : TimeWindow :=
  { w with months := if w.months.isFull then .empty else w.months }

/-- All months count as none. -/
theorem months_said (w : TimeWindow) :
    w.said.months = if w.months.isFull then .empty else w.months := rfl

/-- A window is in force when it says that it is. -/
theorem isActiveAt_said (w : TimeWindow) (t : LocalTime) : w.said.isActiveAt t = w.isActiveAt t := by
  have hmonths : w.said.months.admits t.month = w.months.admits t.month := by
    rw [months_said]
    split
    · rename_i hfull
      have hselects := List.all_eq_true.mp hfull t.month (NamedCycle.complete _)
      rw [Selection.admits, Selection.admits, hselects, Selection.isEmpty_empty, Bool.true_or,
        Bool.or_true]
    · rfl
  unfold isActiveAt
  rw [hmonths]
  rfl

/-- The list of the hours of a window. -/
def ranges? (w : TimeWindow) : Option (Series ClockRange) :=
  w.hours.map fun h => ⟨.ofHours h, []⟩

/-- The parts of the description of a window: months, days and hours. -/
def parts (w : TimeWindow) : List Text :=
  ((Span.series? w.said.months).map (Series.text Span.text)).toList ++
    ((Span.series? w.days).map (Series.text Span.text)).toList ++
      (w.ranges?.map (Series.text ClockRange.text)).toList

theorem monthsText_eq (w : TimeWindow) :
    w.monthsText = if w.said.months.isEmpty then [] else [w.said.months.describe] := by
  unfold monthsText
  rw [months_said]
  by_cases hfull : w.months.isFull = true
  · rw [if_pos hfull, Selection.isEmpty_empty, hfull, Bool.or_true]
    rfl
  · rw [if_neg hfull, Bool.eq_false_iff.mpr hfull, Bool.or_false]

/-- A window that is not in force on every day is described by its parts. -/
theorem describe_eq {w : TimeWindow} (hdays : w.days.isFull = false) :
    w.describe = (if w.parts.isEmpty then "Always" else joined " " w.parts : Text) := by
  have hhours : (w.hours.map Hours.describe).toList =
      (w.ranges?.map (Series.text ClockRange.text)).toList := by
    unfold ranges?
    cases w.hours with
    | none => rfl
    | some h => simp [Series.text, Series.othersText, ClockRange.text_ofHours]
  have hparts : w.monthsText ++ w.daysText ++ (w.hours.map Hours.describe).toList = w.parts := by
    unfold parts daysText
    rw [monthsText_eq, hhours, hdays, Span.toList_series?, Span.toList_series?]
    rfl
  unfold describe
  rw [hparts]

/-- A window of whole minutes whose description says when it is in force: not that it is on every day,
and not that it always is. -/
structure IsTold (w : TimeWindow) : Prop where
  whole : w.IsWhole
  days : w.days.isFull = false
  described : w.describe ≠ "Always"

/-- A description says something about months, days or hours. -/
theorem IsTold.listed {w : TimeWindow} (h : w.IsTold) :
    (Span.series? w.said.months).isSome ∨ (Span.series? w.days).isSome ∨ w.ranges?.isSome := by
  by_contra hnone
  simp only [not_or, Bool.not_eq_true, Option.isSome_eq_false_iff,
    Option.isNone_iff_eq_none] at hnone
  obtain ⟨hmonths, hdays, hhours⟩ := hnone
  have hparts : w.parts = [] := by
    unfold parts
    rw [hmonths, hdays, hhours]
    rfl
  refine h.described ?_
  rw [describe_eq h.days, hparts]
  rfl

end TimeWindow

namespace Condition

/-- A space where there is something to part. -/
def Gap.between (b : Bool) : Gap := if b then .space else .none

/-- The schedule with the given parts and a space between any two of them. -/
def Schedule.spaced (months : Option (Series (Span Month))) (days : Option (Series (Span Weekday)))
    (times : Option (Series ClockRange))
    (listed : months.isSome ∨ days.isSome ∨ times.isSome) : Schedule where
  months := months
  afterMonths := .between (months.isSome && (days.isSome || times.isSome))
  days := days
  afterDays := .between (days.isSome && times.isSome)
  times := times
  listed := listed
  parted hmonths hlater := by
    rw [hmonths, Bool.true_and, (Bool.or_eq_true _ _).mpr hlater]
    decide
  parted' hdays htimes := by
    rw [hdays, htimes]
    decide

theorem Schedule.text_spaced {months : Option (Series (Span Month))}
    {days : Option (Series (Span Weekday))} {times : Option (Series ClockRange)}
    (listed : months.isSome ∨ days.isSome ∨ times.isSome) :
    (spaced months days times listed).text =
      joined " " ((months.map (Series.text Span.text)).toList ++
        (days.map (Series.text Span.text)).toList ++
          (times.map (Series.text ClockRange.text)).toList) := by
  cases months <;> cases days <;> cases times <;>
    simp [text, spaced, partText, Gap.between, Gap.none, Gap.space, joined, List.intercalate,
      Text.ofString]

/-- The schedule that a window describes. -/
def Schedule.ofWindow (w : TimeWindow) (h : w.IsTold) : Schedule :=
  .spaced (Span.series? w.said.months) (Span.series? w.days) w.ranges? h.listed

/-- **A description is the text of a schedule**, -/
theorem Schedule.text_ofWindow {w : TimeWindow} (h : w.IsTold) :
    (ofWindow w h).text = w.describe := by
  have hparts : ¬ w.parts.isEmpty = true := fun hempty =>
    h.described (by rw [TimeWindow.describe_eq h.days, if_pos hempty])
  rw [TimeWindow.describe_eq h.days, if_neg hparts]
  exact text_spaced h.listed

/-- and this schedule states what the window says about itself. -/
theorem Schedule.windows_ofWindow {w : TimeWindow} (h : w.IsTold) :
    (ofWindow w h).windows = [w.said] := by
  have hdays : selection (ofWindow w h).days = w.days := selection_series? w.days
  have hmonths : selection (ofWindow w h).months = w.said.months := selection_series? w.said.months
  have htimes : (ofWindow w h).times = w.hours.map fun hours => ⟨.ofHours hours, []⟩ := rfl
  unfold windows
  rw [hdays, hmonths, htimes]
  cases hhours : w.hours with
  | none =>
      show [(⟨w.days, w.said.months, none⟩ : TimeWindow)] = [⟨w.days, w.said.months, w.hours⟩]
      rw [hhours]
  | some hours =>
      show [(⟨w.days, w.said.months, some (ClockRange.ofHours hours).hours⟩ : TimeWindow)] =
        [⟨w.days, w.said.months, w.hours⟩]
      rw [ClockRange.hours_ofHours (h.whole hours hhours), hhours]

/-! ## Tags -/

/-- Schedules as conditions, with a space before each but the first. -/
def Segment.listed (first : Schedule) (others : List Schedule) : List Segment :=
  ⟨.none, .schedule first, .none⟩ :: others.map fun s => ⟨.space, .schedule s, .none⟩

/-- A schedule bounds no dimension. -/
theorem Segment.filterMap_listed (first : Schedule) (others : List Schedule) :
    ((listed first others).filterMap fun s => s.phrase.axis?) = [] := by
  refine List.filterMap_eq_nil_iff.mpr fun s hs => ?_
  rcases List.mem_cons.mp hs with rfl | hs
  · rfl
  · obtain ⟨_, -, rfl⟩ := List.mem_map.mp hs
    rfl

theorem exists_not_isBlank_no : ∃ c ∈ Text.ofString "no", isBlank c = false :=
  ⟨.char 'n', by decide, by decide⟩

theorem at_not_mem_no : .char '@' ∉ Text.ofString "no" := by decide

/-- A tag that forbids under each of several schedules. -/
def WrittenTag.prohibition (first : Schedule) (others : List Schedule) : WrittenTag where
  beforeValue := .none
  value := "no"
  value_notBlank := exists_not_isBlank_no
  value_noAt := at_not_mem_no
  afterValue := .space
  beforeConditions := .space
  segments := Segment.listed first others
  ne_nil := List.cons_ne_nil _ _
  once := by
    rw [Segment.filterMap_listed]
    exact List.nodup_nil
  afterConditions := .none

theorem WrittenTag.text_prohibition (first : Schedule) (others : List Schedule) :
    (prohibition first others).text =
      "no @ (" ++ joined "; " ((first :: others).map Schedule.text) ++ ")" := by
  have hinner : (prohibition first others).inner =
      joined "; " ((first :: others).map Schedule.text) := by
    have hspaced := joined_append_mark (.char ';') [.char ' '] first.text (others.map Schedule.text)
    rw [List.map_map] at hspaced
    unfold inner prohibition Segment.listed
    rw [List.map_cons, List.map_map]
    refine Eq.trans (congrArg (joined _) ?_) hspaced
    simp [Segment.text, Phrase.text, Gap.none, Gap.space]
  unfold text
  rw [hinner]
  simp [prohibition, Gap.none, Gap.space, Text.ofString]

theorem WrittenTag.windows_prohibition (first : Schedule) (others : List Schedule) :
    ((prohibition first others).segments.flatMap fun s => s.phrase.windows) =
      (first :: others).flatMap Schedule.windows := by
  show first.windows ++ (others.map _).flatMap _ = first.windows ++ others.flatMap _
  rw [List.flatMap_map]
  rfl

variable {α : Type} [Quantity α]

/-- A tag of the grammar is read, with the windows of its conditions. -/
theorem WrittenTag.exists_read (key : Text) (t : WrittenTag) :
    ∃ r : Restriction α, Restriction.read key (some t.text) = .ok r ∧
      r.windows = t.segments.flatMap fun s => s.phrase.windows := by
  have hclauses := clauses_eq (α := α) key t.inner [] t.segments t.once
    fun _ _ _ _ => List.not_mem_nil
  rw [read_of_splitValue t.splitValue_text, t.splitAt_inner, hclauses]
  exact ⟨_, rfl, flatMap_clause t.segments⟩

/-- A tag that joins the descriptions of windows is read with what they say. -/
theorem exists_read_descriptions (key : Text) {ws : List TimeWindow} (hne : ws ≠ [])
    (hws : ∀ w ∈ ws, w.IsTold) :
    ∃ r : Restriction α, Restriction.read key
        (some ("no @ (" ++ joined "; " (ws.map TimeWindow.describe) ++ ")")) = .ok r ∧
      r.windows = ws.map TimeWindow.said := by
  cases ws with
  | nil => exact absurd rfl hne
  | cons w rest =>
      obtain ⟨hw, hrest⟩ := List.forall_mem_cons.mp hws
      obtain ⟨r, hr, hwindows⟩ := WrittenTag.exists_read (α := α) key
        (.prohibition (.ofWindow w hw) (rest.pmap Schedule.ofWindow hrest))
      refine ⟨r, ?_, ?_⟩
      · rw [WrittenTag.text_prohibition, List.map_cons, List.map_pmap] at hr
        simp only [Schedule.text_ofWindow, List.pmap_eq_map] at hr
        exact hr
      · rw [WrittenTag.windows_prohibition, List.flatMap_def, List.map_cons, List.map_pmap]
          at hwindows
        simp only [Schedule.windows_ofWindow, List.pmap_eq_map] at hwindows
        rw [hwindows, List.flatten_cons, ← List.flatMap_def, ← List.map_eq_flatMap]
        rfl

end Condition

/-! ## Reading back -/

/-- What is read back of a window: the same days and hours, the same months unless these are all, and
so a window that is active when the window is. -/
structure TimeWindow.Recovers (v w : TimeWindow) : Prop where
  days : v.days = w.days
  hours : v.hours = w.hours
  months : v.months = if w.months.isFull then .empty else w.months
  isActiveAt : ∀ t, v.isActiveAt t = w.isActiveAt t

theorem TimeWindow.recovers_said (w : TimeWindow) : w.said.Recovers w :=
  ⟨rfl, rfl, rfl, w.isActiveAt_said⟩

/-- **What a window says about itself is read back**, from a tag with its description alone and from
a tag with several descriptions. -/
theorem Restriction.read_described {α : Type} [Quantity α] (key : Text) :
    (∀ w : TimeWindow, w.IsTold → ∃ (r : Restriction α) (v : TimeWindow),
      Restriction.read key (some ("no @ (" ++ w.describe ++ ")")) = .ok r ∧
        r.windows = [v] ∧ v.Recovers w) ∧
    ∀ ws : List TimeWindow, ws ≠ [] → (∀ w ∈ ws, w.IsTold) → ∃ r : Restriction α,
      Restriction.read key
          (some ("no @ (" ++ joined "; " (ws.map TimeWindow.describe) ++ ")")) = .ok r ∧
        List.Forall₂ TimeWindow.Recovers r.windows ws := by
  constructor
  · intro w hw
    obtain ⟨r, hr, hwindows⟩ := Condition.exists_read_descriptions (α := α) key
      (List.cons_ne_nil w []) (List.forall_mem_singleton.mpr hw)
    rw [List.map_singleton, joined, List.intercalate_singleton] at hr
    exact ⟨r, w.said, hr, hwindows, w.recovers_said⟩
  · intro ws hne hws
    obtain ⟨r, hr, hwindows⟩ := Condition.exists_read_descriptions (α := α) key hne hws
    refine ⟨r, hr, ?_⟩
    rw [hwindows, List.forall₂_map_left_iff, List.forall₂_same]
    exact fun w _ => w.recovers_said

/-- Summer evenings up to midnight on most days of the week. -/
def evenings : TimeWindow :=
  ⟨.ofList [.monday, .tuesday, .wednesday, .friday], .range .april .october,
    some (.wholeHours 22 24)⟩

/-- Sundays in all months, from eight o'clock on for a whole day. -/
def sundays : TimeWindow := ⟨.ofList [.sunday], ⟨fun _ => true⟩, some (.wholeHours 8 8)⟩

theorem Restriction.read_described_evenings :
    ∃ r : Restriction ℚ, Restriction.read "access:conditional"
        (some "no @ (Apr-Oct Mo-We,Fr 22:00-24:00; Su 08:00-08:00)") = .ok r ∧
      List.Forall₂ TimeWindow.Recovers r.windows [evenings, sundays] := by
  have hevenings : evenings.IsTold :=
    { whole := by rintro _ ⟨⟩; exact ⟨by decide, by decide⟩
      days := by decide
      described := by decide +kernel }
  have hsundays : sundays.IsTold :=
    { whole := by rintro _ ⟨⟩; exact ⟨by decide, by decide⟩
      days := by decide
      described := by decide +kernel }
  have hvalue :
      ("no @ (" ++ joined "; " ([evenings, sundays].map TimeWindow.describe) ++ ")" : Text) =
        "no @ (Apr-Oct Mo-We,Fr 22:00-24:00; Su 08:00-08:00)" := by decide +kernel
  obtain ⟨r, hr, hwindows⟩ := (Restriction.read_described (α := ℚ) "access:conditional").2
    [evenings, sundays] (List.cons_ne_nil _ _)
    (List.forall_mem_cons.mpr ⟨hevenings, List.forall_mem_singleton.mpr hsundays⟩)
  rw [hvalue] at hr
  exact ⟨r, hr, hwindows⟩

end RoadRules
