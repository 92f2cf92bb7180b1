import RoadRules.Calendar.Moment.Reader
import RoadRules.Proofs.Calendar.Clock
import RoadRules.Proofs.Calendar.Points
import RoadRules.Proofs.Text.Digits
import RoadRules.Proofs.Text.Parts

set_option autoImplicit false

/-! # The international format is read back

A date, a time of day and an offset are each read back from their own text, and a moment from the
three of them (`Moment.ofIso?_text`). Between date and time any one character may stand that is no
surrogate. -/

namespace RoadRules.Calendar.Moment

open Text

/-! ## Digits -/

section Digits

variable {n w : Nat} {rest : Text}

theorem asciiDigits?_paddedDigits (hw : 0 < w) (hn : n < 10 ^ w) :
    asciiDigits? w (paddedDigits w n ++ rest) = some (n, rest) := by
  have hlength := length_paddedDigits hw hn
  have htake : (paddedDigits w n ++ rest).take w = paddedDigits w n := List.take_left' hlength
  have hdrop : (paddedDigits w n ++ rest).drop w = rest := List.drop_left' hlength
  have hdigits : (paddedDigits w n).all CodePoint.isDigit = true :=
    List.all_eq_true.mpr fun c => isDigit_of_mem_paddedDigits
  unfold asciiDigits?
  rw [htake, hdrop]
  dsimp only
  rw [if_pos ⟨hlength, hdigits⟩, digitsValue_paddedDigits]

theorem asciiDigits?_twoDigits (hn : n < 100) :
    asciiDigits? 2 (twoDigits n ++ rest) = some (n, rest) := by
  rw [twoDigits_eq]
  exact asciiDigits?_paddedDigits (by decide) hn

/-- Digits at the end of a text. -/
theorem asciiDigits?_paddedDigits_end (hw : 0 < w) (hn : n < 10 ^ w) :
    asciiDigits? w (paddedDigits w n) = some (n, []) := by
  conv_lhs => rw [← List.append_nil (paddedDigits w n)]
  exact asciiDigits?_paddedDigits hw hn

theorem asciiDigits?_twoDigits_end (hn : n < 100) :
    asciiDigits? 2 (twoDigits n) = some (n, []) := by
  rw [twoDigits_eq]
  exact asciiDigits?_paddedDigits_end (by decide) hn

end Digits

/-! ## Times of day -/

section Pairs

variable {n m left : Nat} {parts : List Nat} {colons : Option Bool} {after : Text}

theorem fraction?_paddedDigits (hm : m < 1000000) :
    fraction? (paddedDigits 6 m) = some (m, false) := by
  have hlength : (paddedDigits 6 m).length = 6 := length_paddedDigits (by decide) hm
  unfold fraction?
  rw [hlength]
  dsimp only
  rw [Nat.min_self, asciiDigits?_paddedDigits_end (by decide) hm]
  show some (m * powerOfTen 0, goesOn []) = some (m, false)
  rw [show powerOfTen 0 = 1 from rfl, Nat.mul_one]
  rfl

/-- A pair of digits with a colon behind it. -/
theorem clockPairs?_colon (hcolons : colons ≠ some false) (hn : n < 100) (hafter : after ≠ []) :
    clockPairs? colons parts (left + 1) (twoDigits n ++ .char ':' :: after) =
      clockPairs? (some true) (n :: parts) left after := by
  obtain ⟨d, rest, rfl⟩ := List.exists_cons_of_ne_nil hafter
  have hseparated : colons.getD (CodePoint.char ':' == .char ':') = true := by
    match colons, hcolons with
    | none, _ => rfl
    | some true, _ => rfl
    | some false, h => exact absurd rfl h
  rw [clockPairs?, asciiDigits?_twoDigits hn]
  show (if colons.getD (CodePoint.char ':' == .char ':') && _ then _ else _) = _
  rw [hseparated]
  rfl

/-- A pair of digits at the end. -/
theorem clockPairs?_last (hn : n < 100) :
    clockPairs? colons parts (left + 1) (twoDigits n) = some (n :: parts, 0, false) := by
  rw [clockPairs?, asciiDigits?_twoDigits_end hn]
  rfl

/-- A pair of digits with a fraction behind it. -/
theorem clockPairs?_fraction (hn : n < 100) (hm : m < 1000000) :
    clockPairs? (some true) parts (left + 1) (twoDigits n ++ .char '.' :: paddedDigits 6 m) =
      some (n :: parts, m, false) := by
  obtain ⟨d, rest, hd⟩ := List.exists_cons_of_ne_nil (paddedDigits_ne_nil 6 m)
  have hread : asciiDigits? 2 (twoDigits n ++ .char '.' :: paddedDigits 6 m) =
      some (n, .char '.' :: d :: rest) := by
    rw [asciiDigits?_twoDigits hn, hd]
  rw [clockPairs?, hread]
  show (fraction? (d :: rest)).map _ = _
  rw [← hd, fraction?_paddedDigits hm]
  rfl

end Pairs

/-- Whether a character may stand in a time of day. -/
def isClockChar (c : CodePoint) : Bool := c.isDigit || c == ':' || c == '.'

/-- **Whether a text writes a time of day.** -/
structure IsClock (s : Text) (t : TimeOfDay) : Prop where
  clock_eq : clock? s = some ⟨t.hour, t.minute, t.second, t.microsecond, false⟩
  mem : ∀ c ∈ s, isClockChar c = true

section Clocks

variable {s : Text} {t : TimeOfDay} {c : CodePoint}

theorem isClockChar_of_isDigit (h : c.isDigit = true) : isClockChar c = true := by
  unfold isClockChar
  rw [h]
  rfl

/-- A digit, a colon or a point begins no offset and is no blank or surrogate. -/
theorem isClockChar_spec (h : isClockChar c = true) :
    beginsOffset c = false ∧ isBlank c = false ∧ c.isSurrogate = false := by
  unfold isClockChar at h
  rw [Bool.or_eq_true, Bool.or_eq_true, beq_iff_eq, beq_iff_eq] at h
  rcases h with (hdigit | rfl) | rfl
  · refine ⟨?_, not_isBlank_of_isDigit hdigit, ?_⟩
    · have hne : ∀ d : CodePoint, d.isDigit = false → (c == d) = false := by
        intro d hd
        rw [beq_eq_false_iff_ne]
        rintro rfl
        rw [hd] at hdigit
        cases hdigit
      unfold beginsOffset
      rw [hne '+' (by decide), hne '-' (by decide), hne 'Z' (by decide)]
      rfl
    · cases c with
      | char c => rfl
      | surrogate place => cases hdigit
  · decide
  · decide

theorem IsClock.not_beginsOffset (h : IsClock s t) (hc : c ∈ s) : beginsOffset c = false :=
  (isClockChar_spec (h.mem c hc)).1

theorem IsClock.ne_nil (h : IsClock s t) : s ≠ [] := by
  rintro rfl
  cases h.clock_eq

/-- Hour and minute of a whole minute. -/
theorem isClock_shortText (h : t.isWholeMinute = true) : IsClock t.shortText t := by
  have hhour : t.hour < 100 := t.hour_lt.trans (by decide)
  have hminute : t.minute < 100 := t.minute_lt.trans (by decide)
  have htext : t.shortText = twoDigits t.hour ++ .char ':' :: twoDigits t.minute := by
    unfold TimeOfDay.shortText
    rw [List.append_assoc]
    rfl
  constructor
  · unfold clock?
    rw [htext, clockPairs?_colon (by simp) hhour (twoDigits_ne_nil _), clockPairs?_last hminute,
      TimeOfDay.second_of_isWholeMinute h, TimeOfDay.microsecond_of_isWholeMinute h]
    rfl
  · intro c hc
    rw [htext, List.mem_append, List.mem_cons] at hc
    rcases hc with hc | rfl | hc
    · exact isClockChar_of_isDigit (isDigit_of_mem_twoDigits hc)
    · rfl
    · exact isClockChar_of_isDigit (isDigit_of_mem_twoDigits hc)

/-- The microseconds of a time of day as they are written, or nothing. -/
def fractionText (t : TimeOfDay) : Text :=
  if t.microsecond = 0 then [] else .char '.' :: paddedDigits 6 t.microsecond

theorem timeText_eq (t : TimeOfDay) :
    t.text = twoDigits t.hour ++ .char ':' :: (twoDigits t.minute ++ .char ':' ::
      (twoDigits t.second ++ fractionText t)) := by
  unfold TimeOfDay.text TimeOfDay.shortText fractionText
  simp only [List.append_assoc]
  rfl

/-- The second with its fraction is the last part of a time of day. -/
theorem clockPairs?_second (parts : List Nat) :
    clockPairs? (some true) parts 1 (twoDigits t.second ++ fractionText t) =
      some (t.second :: parts, t.microsecond, false) := by
  have hsecond : t.second < 100 := t.second_lt.trans (by decide)
  unfold fractionText
  by_cases hmicro : t.microsecond = 0
  · rw [if_pos hmicro, List.append_nil, clockPairs?_last hsecond, hmicro]
  · rw [if_neg hmicro, clockPairs?_fraction hsecond t.microsecond_lt]

/-- Hour, minute and second, and the microseconds if there are any. -/
theorem isClock_text (t : TimeOfDay) : IsClock t.text t := by
  have hhour : t.hour < 100 := t.hour_lt.trans (by decide)
  have hminute : t.minute < 100 := t.minute_lt.trans (by decide)
  have hne : twoDigits t.second ++ fractionText t ≠ [] :=
    List.append_ne_nil_of_left_ne_nil (twoDigits_ne_nil _) _
  constructor
  · unfold clock?
    rw [timeText_eq, clockPairs?_colon (by simp) hhour (by simp),
      clockPairs?_colon (by simp) hminute hne, clockPairs?_second]
    rfl
  · intro c hc
    simp only [timeText_eq, List.mem_append, List.mem_cons] at hc
    rcases hc with hc | rfl | hc | rfl | hc | hc
    · exact isClockChar_of_isDigit (isDigit_of_mem_twoDigits hc)
    · rfl
    · exact isClockChar_of_isDigit (isDigit_of_mem_twoDigits hc)
    · rfl
    · exact isClockChar_of_isDigit (isDigit_of_mem_twoDigits hc)
    · unfold fractionText at hc
      split at hc
      · cases hc
      · rcases List.mem_cons.mp hc with rfl | hc
        · rfl
        · exact isClockChar_of_isDigit (isDigit_of_mem_paddedDigits hc)

end Clocks

/-! ## Offsets from universal time -/

/-- The offset that is read back: one of less than a second counts as none. -/
def settledOffset (micros : Int) : Int := if micros.natAbs < 1000000 then 0 else micros

section Offsets

variable {s : Text} {t : TimeOfDay} {o : Int}

/-- An offset is read back from the time of day that is as long. -/
theorem IsClock.offset?_eq (h : IsClock s t) (negative : Bool) :
    offset? negative s =
      some (settledOffset (if negative then -(t.micros : Int) else t.micros)) := by
  have hmicros : (if t.micros / 1000000 = 0 then 0
      else t.micros / 1000000 * 1000000 + t.microsecond) =
        if t.micros < 1000000 then 0 else t.micros := by
    by_cases hsmall : t.micros < 1000000
    · rw [if_pos (Nat.div_eq_of_lt hsmall), if_pos hsmall]
    · rw [if_neg (by omega), if_neg hsmall, t.micros_eq]
  have hday : (if t.micros < 1000000 then 0 else t.micros) < microsPerDay := by
    have ht := t.micros_lt
    split <;> omega
  unfold offset?
  rw [h.clock_eq]
  dsimp only [Option.bind_eq_bind, Option.bind_some]
  rw [if_neg (by decide), t.seconds_eq, hmicros, if_pos hday]
  unfold settledOffset
  by_cases hsmall : t.micros < 1000000
  · rw [if_pos hsmall]
    cases negative <;> simp [hsmall]
  · rw [if_neg hsmall]
    cases negative <;> simp [hsmall]

/-- An offset of less than a day is written with its sign and the time of day that is as long. -/
theorem exists_offsetText (ho : o.natAbs < microsPerDay) :
    ∃ (sign : CodePoint) (clock : Text) (t : TimeOfDay), offsetText o = sign :: clock ∧
      IsClock clock t ∧ (sign = '+' ∨ sign = '-') ∧
      o = if sign == '-' then -(t.micros : Int) else t.micros := by
  have hmicros : (TimeOfDay.ofMicros o.natAbs).micros = o.natAbs := Nat.mod_eq_of_lt ho
  have hclock : IsClock
      (if (TimeOfDay.ofMicros o.natAbs).micros % microsPerMinute = 0
        then (TimeOfDay.ofMicros o.natAbs).shortText else (TimeOfDay.ofMicros o.natAbs).text)
      (TimeOfDay.ofMicros o.natAbs) := by
    split
    · rename_i hwhole
      exact isClock_shortText (beq_iff_eq.mpr hwhole)
    · exact isClock_text _
  by_cases hneg : o < 0
  · refine ⟨'-', _, _, ?_, hclock, Or.inr rfl, ?_⟩
    · unfold offsetText
      rw [if_pos hneg]
      rfl
    · rw [if_pos (by decide), hmicros]
      omega
  · refine ⟨'+', _, _, ?_, hclock, Or.inl rfl, ?_⟩
    · unfold offsetText
      rw [if_neg hneg]
      rfl
    · rw [if_neg (by decide), hmicros]
      omega

/-- **A time of day is read back.** -/
theorem IsClock.isoTime?_eq (h : IsClock s t) : isoTime? s = some (t, none) := by
  have htake : s.takeWhile (fun c => !beginsOffset c) = s :=
    List.takeWhile_eq_self_iff.mpr fun c hc => by simp [h.not_beginsOffset hc]
  have hdrop : s.dropWhile (fun c => !beginsOffset c) = [] :=
    List.dropWhile_eq_nil_iff.mpr fun c hc => by simp [h.not_beginsOffset hc]
  unfold isoTime?
  rw [htake, hdrop, h.clock_eq]
  dsimp only [Option.bind_eq_bind, Option.bind_some]
  rw [t.ofParts?_fields]
  rfl

/-- A time of day is read back with the offset behind it. -/
theorem IsClock.isoTime?_offset (h : IsClock s t) (ho : o.natAbs < microsPerDay) :
    isoTime? (s ++ offsetText o) = some (t, some (settledOffset o)) := by
  obtain ⟨sign, clock, u, htext, hclock, hsign, rfl⟩ := exists_offsetText ho
  have hbegins : beginsOffset sign = true := by
    rcases hsign with rfl | rfl <;> rfl
  have hs : ∀ c ∈ s, (!beginsOffset c) = true := fun c hc => by
    simp [h.not_beginsOffset hc]
  have hends : ∀ c, (sign :: clock).head? = some c → (!beginsOffset c) = false := by
    rintro c ⟨⟩
    simp [hbegins]
  unfold isoTime?
  rw [htext, takeWhile_append_of_head hs hends, dropWhile_append_of_head hs hends, h.clock_eq]
  dsimp only [Option.bind_eq_bind, Option.bind_some]
  rw [t.ofParts?_fields]
  have hread : (offset? (sign == '-') clock).map (fun o => (t, some o)) = _ :=
    congrArg _ (hclock.offset?_eq (sign == '-'))
  rcases hsign with rfl | rfl
  · exact hread
  · exact hread

end Offsets

/-! ## Dates -/

section Dates

variable {d : Date} {s rest : Text} {c : CodePoint}

theorem dateText_eq (d : Date) :
    d.text = paddedDigits 4 d.year ++ .char '-' :: (twoDigits d.month.number ++
      .char '-' :: twoDigits d.day) := by
  unfold Date.text
  simp only [List.append_assoc]
  rfl

/-- The parts of a date of the calendar have as many digits as they are written with. -/
theorem bounds_of_isValid (h : d.isValid = true) :
    d.year < 10 ^ 4 ∧ 1 ≤ d.month.number ∧ d.month.number ≤ 12 ∧ 1 ≤ d.day ∧ d.day ≤ 31 := by
  simp only [Date.isValid, Bool.and_eq_true, decide_eq_true_eq] at h
  obtain ⟨⟨⟨-, hyear⟩, hday⟩, hlength⟩ := h
  have hmonth : 1 ≤ d.month.number ∧ d.month.number ≤ 12 := by cases d.month <;> decide
  have hlongest : d.month.length (isLeap d.year) ≤ 31 := by
    cases d.month <;> cases isLeap d.year <;> decide
  unfold lastYear at hyear
  exact ⟨by omega, hmonth.1, hmonth.2, hday, by omega⟩

theorem length_dateText (h : d.isValid = true) : d.text.length = 10 := by
  obtain ⟨hyear, -, hmonth, -, hday⟩ := bounds_of_isValid h
  rw [dateText_eq, twoDigits_eq, twoDigits_eq, List.length_append, List.length_cons,
    List.length_append, List.length_cons, length_paddedDigits (by decide) hyear,
    length_paddedDigits (by decide) (by omega), length_paddedDigits (by decide) (by omega)]

/-- A pair of digits does not begin with the letter of the week dates. -/
theorem exists_twoDigits_cons (n : Nat) : ∃ a tail, twoDigits n = a :: tail ∧ a ≠ 'W' := by
  obtain ⟨a, tail, htext⟩ := List.exists_cons_of_ne_nil (twoDigits_ne_nil n)
  refine ⟨a, tail, htext, ?_⟩
  rintro rfl
  have hdigit : CodePoint.isDigit 'W' = true :=
    isDigit_of_mem_twoDigits (n := n) (htext ▸ List.mem_cons_self)
  revert hdigit
  decide

theorem monthDate?_text (y : Nat) (m : Month) {k : Nat} (hk : k < 100) :
    monthDate? y true (twoDigits m.number ++ .char '-' :: twoDigits k) = some ⟨y, m, k⟩ := by
  have hm : m.number < 100 := by cases m <;> decide
  unfold monthDate?
  rw [asciiDigits?_twoDigits hm]
  show (asciiDigits? 2 (twoDigits k) >>= _) = _
  rw [asciiDigits?_twoDigits_end hk]
  show (Month.ofNumber? m.number >>= _) = _
  rw [m.ofNumber?_number]
  rfl

/-- **A date is read back.** -/
theorem isoDate?_text (h : d.isValid = true) : isoDate? d.text = some d := by
  obtain ⟨hyear, -, -, -, hday⟩ := bounds_of_isValid h
  obtain ⟨a, tail, hmonth, ha⟩ := exists_twoDigits_cons d.month.number
  have hread := monthDate?_text d.year d.month (k := d.day) (by omega)
  rw [hmonth] at hread
  unfold isoDate?
  rw [dateText_eq, asciiDigits?_paddedDigits (by decide) hyear, hmonth]
  dsimp only [Option.bind_eq_bind, Option.bind_some]
  rw [List.cons_append] at hread ⊢
  split
  · rename_i heq
    cases heq
    exact absurd rfl ha
  · exact hread

/-- A date at the start of a text is taken to be as long as it is. -/
theorem dateLength_text (h : d.isValid = true) : dateLength (d.text ++ c :: rest) = some 10 := by
  obtain ⟨hyear, -⟩ := bounds_of_isValid h
  have hwidth := length_paddedDigits (w := 4) (by decide) hyear
  obtain ⟨a, tail, hmonth, ha⟩ := exists_twoDigits_cons d.month.number
  have htext : d.text ++ c :: rest = paddedDigits 4 d.year ++ .char '-' :: a ::
      (tail ++ .char '-' :: twoDigits d.day ++ c :: rest) := by
    rw [dateText_eq, hmonth]
    simp
  have hlength : 11 ≤ (d.text ++ c :: rest).length := by
    rw [List.length_append, length_dateText h, List.length_cons]
    omega
  have hdash : (d.text ++ c :: rest)[4]? = some (.char '-') := by
    rw [htext, List.getElem?_append_right (by omega), hwidth]
    rfl
  have hweek : (d.text ++ c :: rest)[5]? = some a := by
    rw [htext, List.getElem?_append_right (by omega), hwidth]
    rfl
  unfold dateLength
  rw [if_neg (by omega), if_neg (by omega), hdash, hweek, if_pos (by decide),
    if_neg (by simpa using ha)]

/-- A date and one more character in front of a time of day. -/
theorem ofCharacters?_text {t : TimeOfDay} {offset : Option Int} (h : d.isValid = true)
    (htime : isoTime? rest = some (t, offset)) :
    ofCharacters? (d.text ++ c :: rest) =
      (LocalTime.ofDate? d t).map fun w => ⟨w, offset⟩ := by
  have htake : (d.text ++ c :: rest).take 10 = d.text := List.take_left' (length_dateText h)
  have hdrop : (d.text ++ c :: rest).drop 10 = c :: rest := List.drop_left' (length_dateText h)
  unfold ofCharacters?
  rw [dateLength_text h]
  dsimp only [Option.bind_eq_bind, Option.bind_some]
  rw [htake, hdrop, isoDate?_text h]
  dsimp only [Option.bind_some]
  rw [htime]
  rfl

end Dates

/-! ## Moments -/

section Moments

variable {s : Text} {t : LocalTime} {c : CodePoint} {o : Int}

/-- A text without surrogates is read as it is. -/
theorem ofIso?_eq (h : s.hasSurrogate = false) : ofIso? s = ofCharacters? s := by
  have hsame : withoutSurrogate s = s := by
    have hnone : separatorPlaces.find? (fun i => (s[i]?.map CodePoint.isSurrogate).getD false) =
        none := by
      rw [List.find?_eq_none]
      intro i _
      cases hi : s[i]? with
      | none => simp
      | some c =>
          have hc : c.isSurrogate = false := by
            have hmem : c ∈ s := List.mem_of_getElem? hi
            simpa using List.any_eq_false.mp h c hmem
          simp [hc]
    unfold withoutSurrogate
    rw [hnone]
  unfold ofIso?
  rw [hsame]
  dsimp only
  rw [if_neg (Bool.eq_false_iff.mp h)]

theorem hasSurrogate_dateText (d : Date) : d.text.hasSurrogate = false := by
  simp [dateText_eq, hasSurrogate_append, hasSurrogate_cons, hasSurrogate_paddedDigits,
    hasSurrogate_twoDigits, CodePoint.isSurrogate]

theorem IsClock.hasSurrogate_eq {u : TimeOfDay} (h : IsClock s u) : s.hasSurrogate = false :=
  List.any_eq_false.mpr fun c hc => Bool.eq_false_iff.mp (isClockChar_spec (h.mem c hc)).2.2

theorem hasSurrogate_offsetText (ho : o.natAbs < microsPerDay) :
    (offsetText o).hasSurrogate = false := by
  obtain ⟨sign, clock, u, htext, hclock, hsign, -⟩ := exists_offsetText ho
  rw [htext, hasSurrogate_cons, hclock.hasSurrogate_eq]
  rcases hsign with rfl | rfl <;> rfl

/-- **A point is read back** from its date and what is read as its time, with any one character
between them. -/
theorem ofIso?_of_isoTime? {rest : Text} {offset : Option Int} (hc : c.isSurrogate = false)
    (hrest : rest.hasSurrogate = false) (htime : isoTime? rest = some (t.time, offset)) :
    ofIso? (t.date.text ++ c :: rest) = some ⟨t, offset⟩ := by
  have hnone : (t.date.text ++ c :: rest).hasSurrogate = false := by
    rw [hasSurrogate_append, hasSurrogate_cons, hasSurrogate_dateText, hc, hrest]
    rfl
  rw [ofIso?_eq hnone, ofCharacters?_text t.isValid_date htime, t.ofDate?_date_time]
  rfl

theorem ofIso?_clock (hc : c.isSurrogate = false) (h : IsClock s t.time) :
    ofIso? (t.date.text ++ c :: s) = some ⟨t, none⟩ :=
  ofIso?_of_isoTime? hc h.hasSurrogate_eq h.isoTime?_eq

theorem momentText_eq (m : Moment) :
    m.text = m.wall.date.text ++ .char 'T' :: (m.wall.time.text ++
      (m.offset.map offsetText).getD []) := by
  unfold Moment.text LocalTime.text
  simp only [List.append_assoc]
  rfl

/-- **A moment is read back from its text.** -/
theorem ofIso?_text {m : Moment} (ho : ∀ o ∈ m.offset, o.natAbs < microsPerDay) :
    ofIso? m.text = some ⟨m.wall, m.offset.map settledOffset⟩ := by
  obtain ⟨t, offset⟩ := m
  have hclock := isClock_text t.time
  rw [momentText_eq]
  cases offset with
  | none =>
      rw [Option.map_none, Option.getD_none, List.append_nil]
      exact ofIso?_clock rfl hclock
  | some o =>
      have hday : o.natAbs < microsPerDay := ho o rfl
      rw [Option.map_some, Option.getD_some]
      refine ofIso?_of_isoTime? rfl ?_ (hclock.isoTime?_offset hday)
      rw [hasSurrogate_append, hclock.hasSurrogate_eq, hasSurrogate_offsetText hday]
      rfl

end Moments

end RoadRules.Calendar.Moment
