import RoadRules.Proofs.Calendar.Iso

set_option autoImplicit false

/-! # Written forms are read back

A form says which numbers stand in a text and what stands between them. What is written in a form,
with two digits for each number and four for the year, is read back in the same form
(`Moment.readForm?_text`). -/

namespace RoadRules.Calendar.Moment

open Text

/-! ## Writing in a form -/

/-- Whether a part of a form is a number. -/
def FormPart.isField : FormPart → Bool
  | year | month | day | hour | minute | second => true
  | mark _ | blank => false

def FormPart.text (v : FormReading) : FormPart → Text
  | year => paddedDigits 4 v.year
  | month => twoDigits v.month
  | day => twoDigits v.day
  | hour => twoDigits v.hour
  | minute => twoDigits v.minute
  | second => twoDigits v.second
  | mark c => [.char c]
  | blank => [.char ' ']

/-- A reading as it is written in a form. -/
def FormReading.text (v : FormReading) (form : List FormPart) : Text :=
  form.flatMap (FormPart.text v)

/-- The reading with one number taken from another reading. -/
def FormReading.take (v r : FormReading) : FormPart → FormReading
  | .year => ⟨v.year, r.month, r.day, r.hour, r.minute, r.second⟩
  | .month => ⟨r.year, v.month, r.day, r.hour, r.minute, r.second⟩
  | .day => ⟨r.year, r.month, v.day, r.hour, r.minute, r.second⟩
  | .hour => ⟨r.year, r.month, r.day, v.hour, r.minute, r.second⟩
  | .minute => ⟨r.year, r.month, r.day, r.hour, v.minute, r.second⟩
  | .second => ⟨r.year, r.month, r.day, r.hour, r.minute, v.second⟩
  | .mark _ | .blank => r

/-- Whether the numbers of a reading can be those of a date and a time of day. -/
structure FormReading.InRange (v : FormReading) : Prop where
  year_lt : v.year < 10 ^ 4
  month_pos : 1 ≤ v.month
  month_le : v.month ≤ 12
  day_pos : 1 ≤ v.day
  day_le : v.day ≤ 31
  hour_lt : v.hour < 24
  minute_lt : v.minute < 60
  second_lt : v.second < 60

/-- **The forms in which a number is closed** by a mark or a blank, or ends the text. -/
inductive IsForm : List FormPart → Prop
  | last {part : FormPart} : part.isField = true → IsForm [part]
  | mark {part : FormPart} {c : Char} {parts : List FormPart} :
      part.isField = true → c.isDigit = false → IsForm parts → IsForm (part :: .mark c :: parts)
  | blank {part : FormPart} {parts : List FormPart} :
      part.isField = true → IsForm parts → IsForm (part :: .blank :: parts)

/-! ## Fields -/

section Fields

variable {v r : FormReading} {part : FormPart} {n largest : Nat} {ascii : Bool}

theorem upTo?_twoDigits (hn : n < 100) :
    upTo? ascii largest (twoDigits n) = if n ≤ largest then some n else none := by
  obtain ⟨a, b, htext, ha, hb⟩ := exists_twoDigits_eq hn
  have hread := natural?_twoDigits n
  rw [htext] at hread ⊢
  simp [upTo?, ha, hb, hread]

theorem monthField?_twoDigits (hn : n < 100) (hpos : 1 ≤ n) :
    monthField? (twoDigits n) = if n ≤ 12 then some n else none := by
  unfold monthField?
  rw [upTo?_twoDigits hn]
  split
  · rw [Option.bind_some, if_neg (by omega)]
  · rfl

theorem dayField?_twoDigits (hle : n ≤ 31) (hpos : 1 ≤ n) :
    dayField? (twoDigits n) = some n := by
  obtain ⟨a, b, htext, ha, -⟩ := exists_twoDigits_eq (n := n) (by omega)
  have hread : ∀ ascii, upTo? ascii 31 [a, b] = some n := by
    intro ascii
    rw [← htext, upTo?_twoDigits (by omega), if_pos hle]
  rw [htext]
  unfold dayField?
  split
  · rename_i heq
    cases heq
    cases ha
  · rename_i heq
    cases heq
    rw [hread, Option.bind_some, if_neg (by omega)]
  · rename_i hno
    exact absurd rfl (hno a b)

/-- **A number in its range is read back** from the field that it is written in. -/
theorem add?_text (h : v.InRange) (hpart : part.isField = true) :
    r.add? part (part.text v) = some (v.take r part) := by
  cases part with
  | year =>
      have hread : yearField? (paddedDigits 4 v.year) = some v.year := by
        unfold yearField?
        rw [if_pos (length_paddedDigits (by decide) h.year_lt), natural?_paddedDigits]
      simp [FormReading.add?, FormPart.text, FormReading.take, hread]
  | month =>
      have hread := monthField?_twoDigits (by have := h.month_le; omega) h.month_pos
      rw [if_pos h.month_le] at hread
      simp [FormReading.add?, FormPart.text, FormReading.take, hread]
  | day =>
      have hread := dayField?_twoDigits h.day_le h.day_pos
      simp [FormReading.add?, FormPart.text, FormReading.take, hread]
  | hour =>
      have hhour := h.hour_lt
      have hread : hourField? (twoDigits v.hour) = some v.hour := by
        unfold hourField?
        rw [upTo?_twoDigits (by omega), if_pos (by omega)]
      simp [FormReading.add?, FormPart.text, FormReading.take, hread]
  | minute =>
      have hminute := h.minute_lt
      have hread : upTo? false 59 (twoDigits v.minute) = some v.minute := by
        rw [upTo?_twoDigits (by omega), if_pos (by omega)]
      simp [FormReading.add?, FormPart.text, FormReading.take, hread]
  | second =>
      have hsecond := h.second_lt
      have hread : upTo? false 59 (twoDigits v.second) = some v.second := by
        rw [upTo?_twoDigits (by omega), if_pos (by omega)]
      simp [FormReading.add?, FormPart.text, FormReading.take, hread]
  | mark _ => cases hpart
  | blank => cases hpart

/-- A field holds nothing but digits. -/
theorem isDigit_of_mem_text {c : CodePoint} (hpart : part.isField = true) (hc : c ∈ part.text v) :
    c.isDigit = true := by
  cases part with
  | year => exact isDigit_of_mem_paddedDigits hc
  | month | day | hour | minute | second => exact isDigit_of_mem_twoDigits hc
  | mark _ | blank => cases hpart

theorem field_ne_nil (hpart : part.isField = true) : part.text v ≠ [] := by
  cases part with
  | year => exact paddedDigits_ne_nil 4 v.year
  | month | day | hour | minute | second => exact twoDigits_ne_nil _
  | mark _ | blank => cases hpart

end Fields

/-! ## Forms -/

section Forms

variable {v r : FormReading} {part next : FormPart} {parts form : List FormPart}
  {field s acc : Text} {c : CodePoint} {mark : Char}

/-- What is written in a form begins with a digit. -/
theorem IsForm.exists_text_cons (h : IsForm form) :
    ∃ a tail, v.text form = a :: tail ∧ a.isDigit = true := by
  have hfirst : ∃ part parts, form = part :: parts ∧ part.isField = true := by
    cases h with
    | last hpart => exact ⟨_, _, rfl, hpart⟩
    | mark hpart => exact ⟨_, _, rfl, hpart⟩
    | blank hpart => exact ⟨_, _, rfl, hpart⟩
  obtain ⟨part, parts, rfl, hpart⟩ := hfirst
  obtain ⟨a, tail, htext⟩ := List.exists_cons_of_ne_nil (field_ne_nil (v := v) hpart)
  refine ⟨a, tail ++ v.text parts, ?_, isDigit_of_mem_text hpart (htext ▸ List.mem_cons_self)⟩
  simp [FormReading.text, htext]

theorem endsField_mark : endsField (.mark mark) acc c = (c == .char mark) := rfl

theorem endsField_blank : endsField .blank acc c = (isBlank c && !acc.isEmpty) := rfl

/-- A field goes up to the first character that ends it. -/
theorem takeField_append (hfield : ∀ acc, ∀ d ∈ field, endsField next acc d = false)
    (hends : endsField next (field.reverse ++ acc) c = true) :
    takeField next acc (field ++ c :: s) = (acc.reverse ++ field, c :: s) := by
  induction field generalizing acc with
  | nil =>
      rw [List.reverse_nil, List.nil_append] at hends
      rw [List.nil_append, List.append_nil, takeField, if_pos hends]
  | cons d rest ih =>
      have hd : endsField next acc d = false := hfield acc d List.mem_cons_self
      rw [List.cons_append, takeField, if_neg (Bool.eq_false_iff.mp hd),
        ih (fun acc e he => hfield acc e (List.mem_cons_of_mem d he)) (by simpa using hends)]
      simp

/-- A field that nothing ends is the whole text. -/
theorem takeField_of_forall (h : ∀ acc, ∀ d ∈ s, endsField next acc d = false) :
    takeField next acc s = (acc.reverse ++ s, []) := by
  induction s generalizing acc with
  | nil => simp [takeField]
  | cons d rest ih =>
      have hd : endsField next acc d = false := h acc d List.mem_cons_self
      rw [takeField, if_neg (Bool.eq_false_iff.mp hd),
        ih fun acc e he => h acc e (List.mem_cons_of_mem d he)]
      simp

/-- A field is read, and what closes it next. -/
theorem readForm?_cons (hpart : part.isField = true) :
    readForm? r (part :: next :: parts) s =
      (r.add? part (takeField next [] s).1).bind fun r =>
        readForm? r (next :: parts) (takeField next [] s).2 := by
  cases part with
  | mark _ | blank => cases hpart
  | _ => rfl

/-- The last field is the rest of the text. -/
theorem readForm?_last (hpart : part.isField = true) : readForm? r [part] s = r.add? part s := by
  have hread : readForm? r [part] s = (r.add? part s).bind some := by
    cases part with
    | mark _ | blank => cases hpart
    | _ => rfl
  rw [hread, Option.bind_fun_some]

/-- Digits in front of a mark are the field that the mark closes. -/
theorem readForm?_mark (hpart : part.isField = true) (hmark : mark.isDigit = false)
    (hfield : ∀ d ∈ field, d.isDigit = true) :
    readForm? r (part :: .mark mark :: parts) (field ++ .char mark :: s) =
      (r.add? part field).bind fun r => readForm? r parts s := by
  have htake : takeField (.mark mark) [] (field ++ .char mark :: s) =
      (field, .char mark :: s) := by
    refine takeField_append ?_ (by rw [endsField_mark, beq_self_eq_true])
    intro acc d hd
    rw [endsField_mark, beq_eq_false_iff_ne]
    rintro rfl
    have hdigit := hfield _ hd
    rw [show CodePoint.isDigit (.char mark) = mark.isDigit from rfl, hmark] at hdigit
    cases hdigit
  have hexpect : expect? (.char mark) (.char mark :: s) = some s := if_pos (beq_self_eq_true _)
  have hmarked : ∀ r, readForm? r (.mark mark :: parts) (.char mark :: s) =
      readForm? r parts s := by
    intro r
    show (expect? (.char mark) (.char mark :: s)).bind (readForm? r parts) = _
    rw [hexpect, Option.bind_some]
  rw [readForm?_cons hpart, htake]
  exact congrArg _ (funext hmarked)

/-- A text without the mark that closes the first field has not the form. -/
theorem readForm?_of_not_mem (hpart : part.isField = true) (hs : .char mark ∉ s) :
    readForm? r (part :: .mark mark :: parts) s = none := by
  have htake : takeField (.mark mark) [] s = (s, []) := by
    refine takeField_of_forall ?_
    intro acc d hd
    rw [endsField_mark, beq_eq_false_iff_ne]
    rintro rfl
    exact hs hd
  rw [readForm?_cons hpart, htake]
  cases r.add? part s <;> rfl

/-- Digits in front of a blank are the field that it closes. -/
theorem readForm?_blank (hpart : part.isField = true) (hfield : ∀ d ∈ field, d.isDigit = true)
    (hne : field ≠ []) (hs : ∀ d, s.head? = some d → isBlank d = false) :
    readForm? r (part :: .blank :: parts) (field ++ .char ' ' :: s) =
      (r.add? part field).bind fun r => readForm? r parts s := by
  have hblank : isBlank (.char ' ') = true := by decide
  have htake : takeField .blank [] (field ++ .char ' ' :: s) = (field, .char ' ' :: s) := by
    refine takeField_append ?_ ?_
    · intro acc d hd
      rw [endsField_blank, not_isBlank_of_isDigit (hfield d hd), Bool.false_and]
    · rw [endsField_blank, hblank, List.append_nil]
      simpa using hne
  have htrim : trimStart (.char ' ' :: s) = s := by
    cases s with
    | nil => rfl
    | cons d rest =>
        have hd : isBlank d = false := hs d rfl
        simp [trimStart, hblank, hd]
  have hparted : ∀ r, readForm? r (.blank :: parts) (.char ' ' :: s) = readForm? r parts s := by
    intro r
    show (if isBlank (.char ' ') = true then readForm? r parts (trimStart (.char ' ' :: s))
      else none) = _
    rw [if_pos hblank, htrim]
  rw [readForm?_cons hpart, htake]
  exact congrArg _ (funext hparted)

/-- **What is written in a form is read back.** -/
theorem readForm?_text (hform : IsForm form) (hv : v.InRange) (r : FormReading) :
    readForm? r form (v.text form) = some (form.foldl v.take r) := by
  induction hform generalizing r with
  | @last part hpart =>
      have htext : v.text [part] = part.text v := by simp [FormReading.text]
      rw [htext, readForm?_last hpart, add?_text hv hpart]
      rfl
  | @mark part c parts hpart hc hparts ih =>
      have htext : v.text (part :: .mark c :: parts) =
          part.text v ++ .char c :: v.text parts := by
        simp [FormReading.text, FormPart.text]
      rw [htext, readForm?_mark hpart hc fun d => isDigit_of_mem_text hpart,
        add?_text hv hpart, Option.bind_some, ih]
      rfl
  | @blank part parts hpart hparts ih =>
      have htext : v.text (part :: .blank :: parts) =
          part.text v ++ .char ' ' :: v.text parts := by
        simp [FormReading.text, FormPart.text]
      have hhead : ∀ d, (v.text parts).head? = some d → isBlank d = false := by
        obtain ⟨a, tail, hcons, ha⟩ := hparts.exists_text_cons (v := v)
        intro d hd
        rw [hcons] at hd
        cases hd
        exact not_isBlank_of_isDigit ha
      rw [htext, readForm?_blank hpart (fun d => isDigit_of_mem_text hpart) (field_ne_nil hpart)
        hhead, add?_text hv hpart, Option.bind_some, ih]
      rfl

end Forms

/-! ## Points of the calendar -/

/-- The numbers of the date and the time of day of a point. -/
def readingOf (t : LocalTime) : FormReading :=
  ⟨t.date.year, t.date.month.number, t.date.day, t.time.hour, t.time.minute, t.time.second⟩

/-- A point as it is written in a form. -/
def written (t : LocalTime) (form : List FormPart) : Text := (readingOf t).text form

section Points

variable {t : LocalTime} {form : List FormPart}

theorem inRange_readingOf (t : LocalTime) : (readingOf t).InRange := by
  obtain ⟨hyear, hmonth, hmonth', hday, hday'⟩ := bounds_of_isValid t.isValid_date
  exact ⟨hyear, hmonth, hmonth', hday, hday', t.time.hour_lt, t.time.minute_lt, t.time.second_lt⟩

/-- **A whole minute is read back in the form that it is written in**, if the form has all its
numbers but perhaps the second. -/
theorem ofForm?_written (hform : IsForm form) (ht : t.time.isWholeMinute = true)
    (hall : form.foldl (readingOf t).take ⟨0, 0, 0, 0, 0, 0⟩ = readingOf t) :
    ofForm? (written t form) form = some ⟨t, none⟩ := by
  have hread : readForm? ⟨0, 0, 0, 0, 0, 0⟩ form (written t form) = some (readingOf t) := by
    rw [← hall]
    exact readForm?_text hform (inRange_readingOf t) _
  have htime := t.time.ofParts?_fields
  rw [TimeOfDay.microsecond_of_isWholeMinute ht] at htime
  unfold ofForm?
  rw [hread]
  dsimp only [Option.bind_eq_bind, Option.bind_some, readingOf]
  rw [t.date.month.ofNumber?_number]
  dsimp only [Option.bind_some]
  rw [htime]
  dsimp only [Option.bind_some]
  rw [t.ofDate?_date_time]
  rfl

end Points

end RoadRules.Calendar.Moment
