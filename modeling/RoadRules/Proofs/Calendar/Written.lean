import RoadRules.Proofs.Calendar.Forms

set_option autoImplicit false

/-! # In which form a text is read

A text may have several forms, and the first of them decides. The international format takes every
text with a date in dashes; of the others, the mark behind the first number and the size of the
number behind that tell the forms apart. So every moment is read back from its own text, and a whole
minute from the forms that people write it in, where month and day change places only if the month
comes first and both of them could be a month (`Moment.read_recovers`). -/

namespace RoadRules.Calendar.Moment

open Text

/-! ## The forms that people write -/

def dashed : List FormPart :=
  [.year, .mark '-', .month, .mark '-', .day, .blank, .hour, .mark ':', .minute]

/-- With the seconds, which are 00 for a whole minute. -/
def dashedSeconds : List FormPart :=
  [.year, .mark '-', .month, .mark '-', .day, .blank, .hour, .mark ':', .minute, .mark ':', .second]

/-- Two numbers of a date and its year with a mark between them, and hour and minute. -/
def yearLast (p q : FormPart) (mark : Char) : List FormPart :=
  [p, .mark mark, q, .mark mark, .year, .blank, .hour, .mark ':', .minute]

def dotted : List FormPart := yearLast .day .month '.'

def dayFirst : List FormPart := yearLast .day .month '/'

def monthFirst : List FormPart := yearLast .month .day '/'

theorem forms_eq : forms = [dashed, dashedSeconds, dotted, dayFirst, monthFirst] := rfl

section Forms

variable {t u : LocalTime} {v r : FormReading} {form : List FormPart} {s : Text}
  {p q : FormPart} {mark : Char} {c : CodePoint}

theorem isForm_yearLast (hp : p.isField = true) (hq : q.isField = true)
    (hmark : mark.isDigit = false) : IsForm (yearLast p q mark) :=
  .mark hp hmark (.mark hq hmark (.blank rfl (.mark rfl rfl (.last rfl))))

theorem isForm_monthFirst : IsForm monthFirst := isForm_yearLast rfl rfl rfl

theorem isForm_of_mem (h : form ∈ [dashed, dashedSeconds, dotted, dayFirst]) : IsForm form := by
  have hdate : ∀ parts, IsForm parts →
      IsForm (.year :: .mark '-' :: .month :: .mark '-' :: .day :: .blank :: parts) :=
    fun parts hparts => .mark rfl rfl (.mark rfl rfl (.blank rfl hparts))
  simp only [List.mem_cons, List.not_mem_nil, or_false] at h
  rcases h with rfl | rfl | rfl | rfl
  · exact hdate _ (.mark rfl rfl (.last rfl))
  · exact hdate _ (.mark rfl rfl (.mark rfl rfl (.last rfl)))
  · exact isForm_yearLast rfl rfl rfl
  · exact isForm_yearLast rfl rfl rfl

theorem text_yearLast (v : FormReading) (p q : FormPart) (mark : Char) :
    v.text (yearLast p q mark) = p.text v ++ .char mark :: (q.text v ++
      .char mark :: v.text [.year, .blank, .hour, .mark ':', .minute]) := by
  simp [FormReading.text, yearLast, FormPart.text]

/-- A mark that is not in a form is not in what is written in it. -/
theorem not_mem_text (hmark : mark.isDigit = false) (hblank : mark ≠ ' ')
    (hform : .mark mark ∉ form) : .char mark ∉ v.text form := by
  intro hmem
  obtain ⟨part, hpart, hc⟩ := List.mem_flatMap.mp hmem
  by_cases hfield : part.isField = true
  · have hdigit := isDigit_of_mem_text hfield hc
    rw [show CodePoint.isDigit (.char mark) = mark.isDigit from rfl, hmark] at hdigit
    cases hdigit
  · cases part with
    | mark c =>
        cases List.mem_singleton.mp hc
        exact hform hpart
    | blank =>
        cases List.mem_singleton.mp hc
        exact hblank rfl
    | _ => exact hfield rfl

theorem hasSurrogate_text (v : FormReading) (form : List FormPart) :
    (v.text form).hasSurrogate = false := by
  induction form with
  | nil => rfl
  | cons part rest ih =>
      have hpart : (part.text v).hasSurrogate = false := by
        cases part with
        | year => exact hasSurrogate_paddedDigits 4 v.year
        | month | day | hour | minute | second => exact hasSurrogate_twoDigits _
        | mark _ | blank => rfl
      show (part.text v ++ v.text rest).hasSurrogate = false
      rw [hasSurrogate_append, hpart, ih]
      rfl

/-! ## The international format or not -/

theorem written_dashed (t : LocalTime) :
    written t dashed = t.date.text ++ .char ' ' :: t.time.shortText := by
  simp [written, FormReading.text, dashed, FormPart.text, readingOf, dateText_eq,
    TimeOfDay.shortText, Text.ofString]

theorem written_dashedSeconds (ht : t.time.isWholeMinute = true) :
    written t dashedSeconds = t.date.text ++ .char ' ' :: t.time.text := by
  simp [written, FormReading.text, dashedSeconds, FormPart.text, readingOf, dateText_eq,
    timeText_eq, fractionText, TimeOfDay.microsecond_of_isWholeMinute ht]

/-- A text whose first four characters are not the digits of a year is not in the format. -/
theorem ofIso?_eq_none (hs : s.hasSurrogate = false) (hc : c ∈ s.take 4)
    (hdigit : c.isDigit = false) : ofIso? s = none := by
  have hdate : ∀ n, isoDate? (s.take n) = none := by
    intro n
    have hyear : asciiDigits? 4 (s.take n) = none := by
      unfold asciiDigits?
      rw [List.take_take]
      dsimp only
      rw [if_neg]
      rintro ⟨hlength, hall⟩
      have hwhole : min 4 n = 4 := by
        rw [List.length_take] at hlength
        omega
      rw [hwhole] at hall
      rw [List.all_eq_true.mp hall c hc] at hdigit
      cases hdigit
    unfold isoDate?
    rw [hyear]
    rfl
  rw [ofIso?_eq hs]
  unfold ofCharacters?
  cases dateLength s with
  | none => rfl
  | some n =>
      dsimp only [Option.bind_eq_bind, Option.bind_some]
      rw [hdate]
      rfl

/-- A date that begins with the day or the month is not in the format. -/
theorem ofIso?_yearLast (hp : p = .day ∨ p = .month) (hmark : mark.isDigit = false) :
    ofIso? (written t (yearLast p q mark)) = none := by
  obtain ⟨-, -, hmonth, -, hday⟩ := bounds_of_isValid t.isValid_date
  have htwo : ∃ n < 100, p.text (readingOf t) = twoDigits n := by
    rcases hp with rfl | rfl
    · exact ⟨t.date.day, by omega, rfl⟩
    · exact ⟨t.date.month.number, by omega, rfl⟩
  obtain ⟨n, hn, hn'⟩ := htwo
  obtain ⟨a, b, hab, -, -⟩ := exists_twoDigits_eq hn
  refine ofIso?_eq_none (c := .char mark) (hasSurrogate_text _ _) ?_ hmark
  unfold written
  rw [text_yearLast, hn', hab]
  simp

/-! ## The first form that a text has -/

theorem ofForm?_eq_none (h : ∀ r, readForm? r form s = none) : ofForm? s form = none := by
  unfold ofForm?
  rw [h]
  rfl

/-- A text without the mark behind the first number of a form has not the form. -/
theorem ofForm?_of_not_mem {parts : List FormPart} (hp : p.isField = true) (hs : .char mark ∉ s) :
    ofForm? s (p :: .mark mark :: parts) = none :=
  ofForm?_eq_none fun _ => readForm?_of_not_mem hp hs

/-- The numbers of a whole minute are all read in a form with its year last. -/
theorem ofForm?_yearLast (hp : p.isField = true) (hq : q.isField = true)
    (hmark : mark.isDigit = false) (hpq : p = .day ∧ q = .month ∨ p = .month ∧ q = .day)
    (ht : t.time.isWholeMinute = true) :
    ofForm? (written t (yearLast p q mark)) (yearLast p q mark) = some ⟨t, none⟩ := by
  refine ofForm?_written (isForm_yearLast hp hq hmark) ht ?_
  unfold readingOf
  rw [TimeOfDay.second_of_isWholeMinute ht]
  rcases hpq with ⟨rfl, rfl⟩ | ⟨rfl, rfl⟩ <;> rfl

/-- A day beyond twelve is no month. -/
theorem ofForm?_dayFirst (hday : 12 < t.date.day) :
    ofForm? (written t monthFirst) dayFirst = none := by
  obtain ⟨-, -, hmonth, hpos, hle⟩ := bounds_of_isValid t.isValid_date
  refine ofForm?_eq_none fun r => ?_
  have htext : written t monthFirst = twoDigits t.date.month.number ++ .char '/' ::
      (twoDigits t.date.day ++ .char '/' ::
        (readingOf t).text [.year, .blank, .hour, .mark ':', .minute]) := text_yearLast ..
  have hno : ∀ r : FormReading, r.add? .month (twoDigits t.date.day) = none := by
    intro r
    unfold FormReading.add?
    dsimp only
    rw [monthField?_twoDigits (by omega) hpos, if_neg (by omega)]
    rfl
  rw [htext]
  unfold dayFirst yearLast
  rw [readForm?_mark rfl rfl fun d => isDigit_of_mem_twoDigits]
  cases r.add? .day (twoDigits t.date.month.number) with
  | none => rfl
  | some r =>
      rw [Option.bind_some, readForm?_mark rfl rfl fun d => isDigit_of_mem_twoDigits, hno]
      rfl

theorem ofText?_of_ofIso? {m : Moment} (h : ofIso? s = some m) : ofText? s = some m := by
  unfold ofText?
  rw [h]

/-- A date that ends with the year is read in the first of three forms that it has. -/
theorem ofText?_yearLast (hform : form = yearLast p q mark) (hp : p = .day ∨ p = .month)
    (hmark : mark.isDigit = false) (hdash : .mark '-' ∉ form) :
    ofText? (written t form) =
      ((ofForm? (written t form) dotted).or (ofForm? (written t form) dayFirst)).or
        (ofForm? (written t form) monthFirst) := by
  have hiso : ofIso? (written t form) = none := hform ▸ ofIso?_yearLast hp hmark
  have hno : .char '-' ∉ written t form := not_mem_text rfl (by decide) hdash
  have hdashed : ofForm? (written t form) dashed = none := ofForm?_of_not_mem rfl hno
  have hseconds : ofForm? (written t form) dashedSeconds = none := ofForm?_of_not_mem rfl hno
  unfold ofText?
  rw [hiso, forms_eq]
  simp only [List.findSome?_cons, List.findSome?_nil, hdashed, hseconds]
  cases ofForm? (written t form) dotted with
  | some m => rfl
  | none =>
      cases ofForm? (written t form) dayFirst with
      | some m => rfl
      | none => cases ofForm? (written t form) monthFirst <;> rfl

/-! ## Month and day in the other order -/

/-- **Whether two points differ in the order of month and day only.** -/
structure IsExchange (t u : LocalTime) : Prop where
  year_eq : u.date.year = t.date.year
  month_eq : u.date.month.number = t.date.day
  day_eq : u.date.day = t.date.month.number
  time_eq : u.time = t.time

/-- A day that could be a month can change places with the month. -/
theorem exists_isExchange (h : t.date.day ≤ 12) : ∃ u, IsExchange t u := by
  obtain ⟨-, hmonth, hmonth', hday, -⟩ := bounds_of_isValid t.isValid_date
  have hnumber : ∀ n < 13, 1 ≤ n → ∃ m ∈ Month.year, m.number = n := by decide
  obtain ⟨m, -, hm⟩ := hnumber t.date.day (by omega) hday
  have hvalid : (⟨t.date.year, m, t.date.month.number⟩ : Date).isValid = true := by
    have hdate := t.isValid_date
    have hlength := m.le_length (isLeap t.date.year)
    simp only [Date.isValid, Bool.and_eq_true, decide_eq_true_eq] at hdate ⊢
    exact ⟨⟨hdate.1.1, hmonth⟩, by omega⟩
  obtain ⟨u, -, hdate, htime⟩ := LocalTime.exists_ofDate? hvalid t.time
  exact ⟨u, by rw [hdate], by rw [hdate, hm], by rw [hdate], htime⟩

/-- The text of one with the month first is the text of the other with the day first. -/
theorem IsExchange.written_eq (h : IsExchange t u) : written t monthFirst = written u dayFirst := by
  simp [written, FormReading.text, monthFirst, dayFirst, yearLast, FormPart.text, readingOf,
    h.year_eq, h.month_eq, h.day_eq, h.time_eq]

/-! ## What each form is read as -/

theorem ofText?_dashed (ht : t.time.isWholeMinute = true) :
    ofText? (written t dashed) = some ⟨t, none⟩ := by
  rw [written_dashed]
  exact ofText?_of_ofIso? (ofIso?_clock rfl (isClock_shortText ht))

theorem ofText?_dashedSeconds (ht : t.time.isWholeMinute = true) :
    ofText? (written t dashedSeconds) = some ⟨t, none⟩ := by
  rw [written_dashedSeconds ht]
  exact ofText?_of_ofIso? (ofIso?_clock rfl (isClock_text t.time))

theorem ofText?_dotted (ht : t.time.isWholeMinute = true) :
    ofText? (written t dotted) = some ⟨t, none⟩ := by
  have hform : ofForm? (written t dotted) dotted = some ⟨t, none⟩ :=
    ofForm?_yearLast rfl rfl rfl (Or.inl ⟨rfl, rfl⟩) ht
  rw [ofText?_yearLast (rfl : dotted = yearLast .day .month '.') (Or.inl rfl) rfl (by decide),
    hform]
  rfl

theorem ofText?_dayFirst (ht : t.time.isWholeMinute = true) :
    ofText? (written t dayFirst) = some ⟨t, none⟩ := by
  have hno : .char '.' ∉ written t dayFirst := not_mem_text rfl (by decide) (by decide)
  have hdotted : ofForm? (written t dayFirst) dotted = none := ofForm?_of_not_mem rfl hno
  have hform : ofForm? (written t dayFirst) dayFirst = some ⟨t, none⟩ :=
    ofForm?_yearLast rfl rfl rfl (Or.inl ⟨rfl, rfl⟩) ht
  rw [ofText?_yearLast (rfl : dayFirst = yearLast .day .month '/') (Or.inl rfl) rfl (by decide),
    hdotted, hform]
  rfl

theorem ofText?_monthFirst (ht : t.time.isWholeMinute = true) (hday : 12 < t.date.day) :
    ofText? (written t monthFirst) = some ⟨t, none⟩ := by
  have hno : .char '.' ∉ written t monthFirst := not_mem_text rfl (by decide) (by decide)
  have hdotted : ofForm? (written t monthFirst) dotted = none := ofForm?_of_not_mem rfl hno
  have hform : ofForm? (written t monthFirst) monthFirst = some ⟨t, none⟩ :=
    ofForm?_yearLast rfl rfl rfl (Or.inr ⟨rfl, rfl⟩) ht
  rw [ofText?_yearLast (rfl : monthFirst = yearLast .month .day '/') (Or.inr rfl) rfl (by decide),
    hdotted, ofForm?_dayFirst hday, hform]
  rfl

/-- **Whole minutes** in every form but `monthFirst`. -/
theorem ofText?_written (hform : form ∈ [dashed, dashedSeconds, dotted, dayFirst])
    (ht : t.time.isWholeMinute = true) : ofText? (written t form) = some ⟨t, none⟩ := by
  simp only [List.mem_cons, List.not_mem_nil, or_false] at hform
  rcases hform with rfl | rfl | rfl | rfl
  · exact ofText?_dashed ht
  · exact ofText?_dashedSeconds ht
  · exact ofText?_dotted ht
  · exact ofText?_dayFirst ht

/-- With the month first, day and month change places if the day could be a month. -/
theorem exists_ofText?_monthFirst (ht : t.time.isWholeMinute = true) (hday : t.date.day ≤ 12) :
    ∃ u, IsExchange t u ∧ ofText? (written t monthFirst) = some ⟨u, none⟩ := by
  obtain ⟨u, hu⟩ := exists_isExchange hday
  have hwhole : u.time.isWholeMinute = true := by rw [hu.time_eq, ht]
  exact ⟨u, hu, by rw [hu.written_eq, ofText?_dayFirst hwhole]⟩

end Forms

/-! ## White space around a text -/

section Reading

variable {s before after gap gap' : Text} {v : FormReading} {form : List FormPart} {m : Moment}

/-- What a text denotes is what is left of it when it is trimmed. -/
theorem read_eq_ok_iff : Moment.read (.text s) = .ok m ↔ ofText? (trim s) = some m := by
  have hempty : ofText? [] = none := by decide
  have hplain : (Scalar.text s).plain = s := rfl
  unfold Moment.read
  rw [hplain]
  dsimp only
  cases trim s with
  | nil =>
      rw [if_pos (Or.inr List.isEmpty_nil), hempty]
      exact ⟨nofun, nofun⟩
  | cons c rest =>
      rw [if_neg (by simp)]
      cases ofText? (c :: rest) <;> simp

/-- White space around a text changes nothing. -/
theorem read_around (hgap : ∀ c ∈ gap, isBlank c = true) (hgap' : ∀ c ∈ gap', isBlank c = true) :
    Moment.read (.text (gap ++ s ++ gap')) = .ok m ↔ Moment.read (.text s) = .ok m := by
  rw [read_eq_ok_iff, read_eq_ok_iff, trim_around hgap hgap']

/-- A text that begins and ends with something else has no white space around it. -/
theorem trim_eq_self (hstart : ∃ a tail, s = a :: tail ∧ isBlank a = false)
    (hend : s = before ++ after) (hne : after ≠ []) (hafter : ∀ c ∈ after, isBlank c = false) :
    trim s = s := by
  obtain ⟨a, tail, hcons, ha⟩ := hstart
  have htrimStart : trimStart s = s := by
    rw [hcons]
    exact trimStart_cons ha
  unfold trim
  rw [htrimStart, hend]
  exact trimEnd_append_right hne (trimEnd_of_forall hafter)

/-- What is written in a form ends with a number. -/
theorem IsForm.exists_text_append (h : IsForm form) :
    ∃ (before : Text) (part : FormPart), part.isField = true ∧
      v.text form = before ++ part.text v := by
  induction h with
  | @last part hpart => exact ⟨[], part, hpart, by simp [FormReading.text]⟩
  | @mark first c parts _ _ _ ih =>
      obtain ⟨before, part, hpart, htext⟩ := ih
      refine ⟨first.text v ++ .char c :: before, part, hpart, ?_⟩
      show first.text v ++ (.char c :: v.text parts) = _
      rw [htext]
      simp
  | @blank first parts _ _ ih =>
      obtain ⟨before, part, hpart, htext⟩ := ih
      refine ⟨first.text v ++ .char ' ' :: before, part, hpart, ?_⟩
      show first.text v ++ (.char ' ' :: v.text parts) = _
      rw [htext]
      simp

theorem IsForm.trim_text (h : IsForm form) : trim (v.text form) = v.text form := by
  obtain ⟨a, tail, hcons, ha⟩ := h.exists_text_cons (v := v)
  obtain ⟨before, part, hpart, hend⟩ := h.exists_text_append (v := v)
  exact trim_eq_self ⟨a, tail, hcons, not_isBlank_of_isDigit ha⟩ hend (field_ne_nil hpart)
    fun c hc => not_isBlank_of_isDigit (isDigit_of_mem_text hpart hc)

theorem read_written_iff {t : LocalTime} (h : IsForm form) :
    Moment.read (.text (written t form)) = .ok m ↔ ofText? (written t form) = some m := by
  rw [read_eq_ok_iff]
  unfold written
  rw [h.trim_text]

/-- The text of a moment has no white space around it. -/
theorem trim_momentText (ho : ∀ o ∈ m.offset, o.natAbs < microsPerDay) : trim m.text = m.text := by
  obtain ⟨t, offset⟩ := m
  have hclock := isClock_text t.time
  have hstart : ∃ a tail, (⟨t, offset⟩ : Moment).text = a :: tail ∧ isBlank a = false := by
    obtain ⟨a, tail, hyear⟩ := List.exists_cons_of_ne_nil (paddedDigits_ne_nil 4 t.date.year)
    have ha : a.isDigit = true := isDigit_of_mem_paddedDigits (hyear ▸ List.mem_cons_self)
    rw [momentText_eq, dateText_eq, hyear]
    exact ⟨a, _, rfl, not_isBlank_of_isDigit ha⟩
  have hends : ∃ before after, (⟨t, offset⟩ : Moment).text = before ++ after ∧
      ∃ u, IsClock after u := by
    cases offset with
    | none =>
        refine ⟨t.date.text ++ [.char 'T'], t.time.text, ?_, _, hclock⟩
        simp [momentText_eq]
    | some o =>
        obtain ⟨sign, clock, u, htext, hu, -⟩ := exists_offsetText (ho o rfl)
        refine ⟨t.date.text ++ .char 'T' :: (t.time.text ++ [sign]), clock, ?_, u, hu⟩
        simp [momentText_eq, htext]
  obtain ⟨before, after, hend, u, hu⟩ := hends
  exact trim_eq_self hstart hend hu.ne_nil fun c hc => (isClockChar_spec (hu.mem c hc)).2.1

end Reading

/-! ## All texts of a moment -/

/-- **Moments are read back from what is written of them.** From its own text a moment is read back
with its local time and its offset, but an offset of less than a second is read as none. A whole
minute is read back from a text with dashes, with or without seconds, and from one with points or
with slashes and the day first. With the month first it is read back if the day is more than twelve,
and otherwise with day and month exchanged. White space around a text changes nothing. -/
theorem read_recovers :
    (∀ m : Moment, (∀ o ∈ m.offset, o.natAbs < microsPerDay) →
      Moment.read (.text m.text) = .ok ⟨m.wall, m.offset.map settledOffset⟩) ∧
    (∀ t : LocalTime, t.time.isWholeMinute = true →
      (∀ form ∈ [dashed, dashedSeconds, dotted, dayFirst],
        Moment.read (.text (written t form)) = .ok ⟨t, none⟩) ∧
      (12 < t.date.day → Moment.read (.text (written t monthFirst)) = .ok ⟨t, none⟩) ∧
      (t.date.day ≤ 12 →
        ∃ u, IsExchange t u ∧ Moment.read (.text (written t monthFirst)) = .ok ⟨u, none⟩)) ∧
    (∀ (gap gap' s : Text) (m : Moment), (∀ c ∈ gap, isBlank c = true) →
      (∀ c ∈ gap', isBlank c = true) →
        (Moment.read (.text (gap ++ s ++ gap')) = .ok m ↔ Moment.read (.text s) = .ok m)) := by
  refine ⟨?_, ?_, fun gap gap' s m hgap hgap' => read_around hgap hgap'⟩
  · intro m ho
    rw [read_eq_ok_iff, trim_momentText ho]
    exact ofText?_of_ofIso? (ofIso?_text ho)
  · intro t ht
    refine ⟨?_, ?_, ?_⟩
    · intro form hform
      rw [read_written_iff (isForm_of_mem hform)]
      exact ofText?_written hform ht
    · intro hday
      rw [read_written_iff isForm_monthFirst]
      exact ofText?_monthFirst ht hday
    · intro hday
      obtain ⟨u, hu, hread⟩ := exists_ofText?_monthFirst ht hday
      exact ⟨u, hu, (read_written_iff isForm_monthFirst).mpr hread⟩

/-- One microsecond into the last second of a leap day, five and a half hours and half a second
behind universal time. -/
def leapDayEnd : Moment := ⟨⟨63844847999000001, by decide⟩, some (-19800500000)⟩

/-- Early on the fourteenth of March. -/
def earlyMarch : LocalTime := ⟨63814367160000000, by decide⟩

/-- Early on the fourth of March. -/
def earlierMarch : LocalTime := ⟨63813503160000000, by decide⟩

theorem read_recovers_march :
    (∀ o ∈ leapDayEnd.offset, o.natAbs < microsPerDay) ∧
      leapDayEnd.text = "2024-02-29T23:59:59.000001-05:30:00.500000" ∧
      Moment.read (.text leapDayEnd.text) = .ok leapDayEnd ∧
      earlyMarch.time.isWholeMinute = true ∧ earlierMarch.time.isWholeMinute = true ∧
      [dashed, dashedSeconds, dotted, dayFirst].map (written earlyMarch) =
        ["2023-03-14 05:06", "2023-03-14 05:06:00", "14.03.2023 05:06", "14/03/2023 05:06"] ∧
      (∀ form ∈ [dashed, dashedSeconds, dotted, dayFirst],
        Moment.read (.text (written earlyMarch form)) = .ok ⟨earlyMarch, none⟩) ∧
      12 < earlyMarch.date.day ∧ written earlyMarch monthFirst = "03/14/2023 05:06" ∧
      Moment.read (.text (written earlyMarch monthFirst)) = .ok ⟨earlyMarch, none⟩ ∧
      earlierMarch.date.day ≤ 12 ∧ written earlierMarch monthFirst = "03/04/2023 05:06" ∧
      (∃ u, IsExchange earlierMarch u ∧
        Moment.read (.text (written earlierMarch monthFirst)) = .ok ⟨u, none⟩) ∧
      (∀ c ∈ (" \t" : Text), isBlank c = true) ∧
      Moment.read (.text ((" \t" : Text) ++ written earlyMarch dotted ++ (" \t" : Text))) =
        .ok ⟨earlyMarch, none⟩ := by
  have hoffset : ∀ o ∈ leapDayEnd.offset, o.natAbs < microsPerDay := by
    rintro o ⟨⟩
    decide
  have hwhole : earlyMarch.time.isWholeMinute = true := by decide
  have hwhole' : earlierMarch.time.isWholeMinute = true := by decide
  have hdotted : dotted ∈ [dashed, dashedSeconds, dotted, dayFirst] := by decide
  have hday : 12 < earlyMarch.date.day := by decide
  have hday' : earlierMarch.date.day ≤ 12 := by decide
  have hblank : ∀ c ∈ (" \t" : Text), isBlank c = true := by decide
  obtain ⟨hmoment, hpoint, haround⟩ := read_recovers
  obtain ⟨hforms, hlate, -⟩ := hpoint earlyMarch hwhole
  exact ⟨hoffset, by decide +kernel, hmoment leapDayEnd hoffset, hwhole, hwhole',
    by decide +kernel, hforms, hday, by decide +kernel, hlate hday, hday',
    by decide +kernel, (hpoint earlierMarch hwhole').2.2 hday', hblank,
    (haround _ _ _ _ hblank hblank).mpr (hforms dotted hdotted)⟩

/-- Ten o'clock with an offset of five microseconds. -/
def shortOffset : Moment := ⟨⟨63833047200000000, by decide⟩, some 5⟩

/-- **An offset of less than a second** is lost. -/
theorem read_shortOffset :
    (∀ o ∈ shortOffset.offset, o.natAbs < microsPerDay) ∧
      shortOffset.text = "2023-10-16T10:00:00+00:00:00.000005" ∧
      Moment.read (.text shortOffset.text) = .ok ⟨shortOffset.wall, some 0⟩ ∧
      Moment.read (.text shortOffset.text) ≠ .ok shortOffset := by
  have hoffset : ∀ o ∈ shortOffset.offset, o.natAbs < microsPerDay := by
    rintro o ⟨⟩
    decide
  have hread : Moment.read (.text shortOffset.text) = .ok ⟨shortOffset.wall, some 0⟩ := by
    rw [read_eq_ok_iff, trim_momentText hoffset]
    exact ofText?_of_ofIso? (ofIso?_text hoffset)
  refine ⟨hoffset, by decide +kernel, hread, ?_⟩
  rw [hread]
  intro hsame
  cases congrArg Moment.offset (Except.ok.inj hsame)

end RoadRules.Calendar.Moment
