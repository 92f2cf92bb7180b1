import RoadRules.Proofs.Condition.Schedule

set_option autoImplicit false

/-! # What is read as a schedule

The other direction of reading schedules. A condition that is read as windows is a row of marks:
spans of months, spans of days and daily ranges of hours, with any number of commas before, between
and after them. Nothing is said about the order of the marks, since the reader does not check it. -/

namespace RoadRules.Condition

open Text Calendar

/-- A part of a condition: one span of months or days, or one daily range of hours. -/
inductive Part where
  | month (x : Span Month)
  | day (x : Span Weekday)
  | time (r : ClockRange)

def Part.item : Part → Item
  | month x => x.item
  | day x => x.item
  | time r => r.item

def Item.tokens : Item → List Token
  | single a => [.atom a]
  | range a b => [.atom a, .dash, .atom b]

/-- What a condition on months, days and hours consists of. -/
inductive Mark where
  | comma
  | part (p : Part)

def Mark.tokens : Mark → List Token
  | comma => [.comma]
  | part p => p.item.tokens

def Mark.items : Mark → List Item
  | comma => []
  | part p => [p.item]

/-! ## Times

A time that is read is one that the grammar has: its numbers are what a clock can show. -/

section Times

variable {s : Text} {t : TimeOfDay}

theorem exists_natural? (hne : s ≠ []) (h : ∀ c ∈ s, isDecimalDigit c = true) :
    ∃ n, natural? s = some n := by
  have hdigits : ∃ ds, s.mapM digitValue? = some ds := by
    clear hne
    induction s with
    | nil => exact ⟨[], rfl⟩
    | cons c rest ih =>
        obtain ⟨d, hd⟩ := Option.isSome_iff_exists.mp (h c List.mem_cons_self)
        obtain ⟨ds, hds⟩ := ih fun c hc => h c (List.mem_cons_of_mem _ hc)
        exact ⟨d :: ds, by simp [hd, hds]⟩
  obtain ⟨ds, hds⟩ := hdigits
  exact ⟨digitsValue ds, by simp [natural?, hne, hds]⟩

theorem IsPair.exists_natural? (h : IsPair s) : ∃ n, natural? s = some n := by
  obtain ⟨a, b, ha, hb, rfl⟩ := h
  exact Condition.exists_natural? (by simp) (by simp [ha, hb])

theorem IsHour.exists_natural? (h : IsHour s) : ∃ n, natural? s = some n := by
  rcases h with h | ⟨a, ha, rfl⟩
  · exact h.exists_natural?
  · exact Condition.exists_natural? (by simp) (by simp [ha])

/-- The parts of a time are numbers. -/
theorem IsTime.exists_natural? (h : IsTime s) :
    ∀ part ∈ splitAt (.char ':') s, ∃ n, natural? part = some n := by
  obtain ⟨hour, minute, seconds, hhour, hminute, hseconds, rfl⟩ := h
  rw [splitAt_append_cons hhour.not_colon]
  refine List.forall_mem_cons.mpr ⟨hhour.exists_natural?, ?_⟩
  rcases hseconds with rfl | ⟨second, hsecond, rfl⟩
  · rw [List.append_nil, splitAt_of_not_mem hminute.not_colon]
    simpa using hminute.exists_natural?
  · rw [splitAt_append_cons hminute.not_colon, splitAt_of_not_mem hsecond.not_colon]
    simpa using ⟨hminute.exists_natural?, hsecond.exists_natural?⟩

/-- A time whose minute and second are below sixty is what some clock shows. -/
theorem IsTime.exists_clock (h : IsTime s) (hminute : (timeParts s).getD 1 0 < 60)
    (hsecond : (timeParts s).getD 2 0 < 60) : ∃ c : Clock, c.text = s := by
  obtain ⟨hour, minute, seconds, hhour, hpair, hseconds, rfl⟩ := h
  obtain ⟨n, hn⟩ := hhour.exists_natural?
  obtain ⟨m, hm⟩ := hpair.exists_natural?
  rcases hseconds with rfl | ⟨second, hpair', rfl⟩
  · rw [List.append_nil] at hminute ⊢
    rw [timeParts_minute hhour hpair, hm] at hminute
    exact ⟨⟨hour, n, hhour, hn, ⟨minute, m, hpair, hm, hminute⟩, none⟩, by
      simp [Clock.text, Clock.secondText]⟩
  · obtain ⟨l, hl⟩ := hpair'.exists_natural?
    rw [timeParts_second hhour hpair hpair', hm] at hminute
    rw [timeParts_second hhour hpair hpair', hl] at hsecond
    exact ⟨⟨hour, n, hhour, hn, ⟨minute, m, hpair, hm, hminute⟩, some ⟨second, l, hpair', hl,
      hsecond⟩⟩, rfl⟩

/-- **A time that is read** is a time of the day, or where a range may end the end of the day. -/
theorem exists_clock_of_timeOfDay {endsRange : Bool} (hs : IsTime s)
    (h : timeOfDay endsRange s = .ok t) :
    ∃ c : Clock, c.text = s ∧ (c.IsOfDay ∨ endsRange = true ∧ c.IsEndOfDay) := by
  unfold timeOfDay at h
  dsimp only at h
  split at h
  · rename_i hmidnight
    obtain ⟨hends, hhour, hminute, hsecond⟩ := hmidnight
    obtain ⟨c, rfl⟩ := hs.exists_clock (by omega) (by omega)
    rw [c.timeParts_text] at hhour hminute hsecond
    refine ⟨c, rfl, Or.inr ⟨hends, hhour, hminute, fun x hx => ?_⟩⟩
    simpa [hx] using hsecond
  · split at h
    · cases h
    · obtain ⟨c, rfl⟩ := hs.exists_clock (by omega) (by omega)
      have hhour : ¬ 23 < (timeParts c.text).getD 0 0 := by omega
      rw [c.timeParts_text] at hhour
      exact ⟨c, rfl, Or.inl (Nat.lt_succ_of_le (not_lt.mp hhour))⟩

end Times

/-! ## Parts -/

section Parts

variable {ts : List Token} {its : List Item}

/-- An item of words that names something is a span of days or months. -/
theorem exists_part_of_wordRange {a b : Text} {piece : Piece}
    (h : wordRangePiece a b = .ok piece) :
    ∃ p : Part, p.item = .range (.word a) (.word b) := by
  unfold wordRangePiece at h
  split at h
  · rename_i d e hd he
    exact ⟨.day (.range d .none .none e), by
      simp [Part.item, Span.item, NamedCycle.name_of_ofName? hd, NamedCycle.name_of_ofName? he]⟩
  · rename_i m n _ hm _ hn
    exact ⟨.month (.range m .none .none n), by
      simp [Part.item, Span.item, NamedCycle.name_of_ofName? hm, NamedCycle.name_of_ofName? hn]⟩
  all_goals cases h

/-- A word that names something is a span of days or months. -/
theorem exists_part_of_word {w : Text} {piece : Piece} (h : wordPiece w = .ok piece) :
    ∃ p : Part, p.item = .single (.word w) := by
  unfold wordPiece at h
  split at h
  · rename_i d hd
    exact ⟨.day (.one d), by simp [Part.item, Span.item, NamedCycle.name_of_ofName? hd]⟩
  · rename_i m _ hm
    exact ⟨.month (.one m), by simp [Part.item, Span.item, NamedCycle.name_of_ofName? hm]⟩
  · cases h

/-- Two times that make a daily range of hours. -/
theorem exists_part_of_times {a b : Text} {piece : Piece} (ha : IsTime a) (hb : IsTime b)
    (h : (Item.range (.time a) (.time b)).piece = .ok piece) :
    ∃ p : Part, p.item = .range (.time a) (.time b) := by
  change (timeOfDay false a >>= fun start => timeOfDay true b >>= fun stop =>
    pure (Piece.hours ⟨start, stop⟩)) = .ok piece at h
  obtain ⟨start, hstart, hrest⟩ := bind_eq_ok.mp h
  obtain ⟨stop, hstop, -⟩ := bind_eq_ok.mp hrest
  obtain ⟨c, rfl, hc⟩ := exists_clock_of_timeOfDay ha hstart
  obtain ⟨d, rfl, hd⟩ := exists_clock_of_timeOfDay hb hstop
  have hday : c.IsOfDay := hc.resolve_right fun hno => by cases hno.1
  exact ⟨.time ⟨c, hday, .none, .none, d, hd.imp_right And.right⟩, rfl⟩

/-- **An item that names something** and whose times are times is a part. -/
theorem exists_part {it : Item} {piece : Piece} (h : it.piece = .ok piece)
    (hwritten : ∀ t ∈ it.tokens, t.IsWritten) : ∃ p : Part, p.item = it := by
  match it, h, hwritten with
  | .single (.time _), h, _ => cases h
  | .single (.word w), h, _ => exact exists_part_of_word h
  | .range (.time a) (.time b), h, hwritten =>
      have ha : IsTime a := hwritten (.atom (.time a)) (by simp [Item.tokens])
      have hb : IsTime b := hwritten (.atom (.time b)) (by simp [Item.tokens])
      exact exists_part_of_times ha hb h
  | .range (.word a) (.word b), h, _ => exact exists_part_of_wordRange h
  | .range (.time _) (.word _), h, _ => cases h
  | .range (.word _) (.time _), h, _ => cases h

theorem Spells.isWritten {s : Text} (h : Spells s ts) : ∀ t ∈ ts, t.IsWritten := by
  induction h with
  | nil => simp
  | blank _ _ ih => exact ih
  | token hwritten _ _ ih => exact List.forall_mem_cons.mpr ⟨hwritten, ih⟩

/-- An item in front of marks is one more mark. -/
theorem exists_marks_cons {it : Item} (hpiece : ∃ piece, it.piece = .ok piece)
    (hwritten : ∀ t ∈ it.tokens, t.IsWritten)
    (hmarks : ∃ ms : List Mark, ts = ms.flatMap Mark.tokens ∧ its = ms.flatMap Mark.items) :
    ∃ ms : List Mark, it.tokens ++ ts = ms.flatMap Mark.tokens ∧
      it :: its = ms.flatMap Mark.items := by
  obtain ⟨piece, hpiece⟩ := hpiece
  obtain ⟨ms, rfl, rfl⟩ := hmarks
  obtain ⟨p, rfl⟩ := exists_part hpiece hwritten
  exact ⟨.part p :: ms, rfl, rfl⟩

/-- **Tokens whose items name something** form marks. -/
theorem Grouped.exists_marks (h : Grouped ts its) (hwritten : ∀ t ∈ ts, t.IsWritten)
    (hpieces : ∀ it ∈ its, ∃ piece, it.piece = .ok piece) :
    ∃ ms : List Mark, ts = ms.flatMap Mark.tokens ∧ its = ms.flatMap Mark.items := by
  induction h with
  | nil => exact ⟨[], rfl, rfl⟩
  | comma _ ih =>
      obtain ⟨ms, rfl, rfl⟩ := ih (List.forall_mem_cons.mp hwritten).2 hpieces
      exact ⟨.comma :: ms, rfl, rfl⟩
  | @single a ts its _ _ ih =>
      obtain ⟨hpiece, hothers⟩ := List.forall_mem_cons.mp hpieces
      obtain ⟨hitem, hrest⟩ := List.forall_mem_append.mp
        (show ∀ t ∈ [.atom a] ++ ts, t.IsWritten from hwritten)
      exact exists_marks_cons hpiece hitem (ih hrest hothers)
  | @range a b ts its _ ih =>
      obtain ⟨hpiece, hothers⟩ := List.forall_mem_cons.mp hpieces
      obtain ⟨hitem, hrest⟩ := List.forall_mem_append.mp
        (show ∀ t ∈ [.atom a, .dash, .atom b] ++ ts, t.IsWritten from hwritten)
      exact exists_marks_cons hpiece hitem (ih hrest hothers)

/-- **What is read as windows** is a row of marks with a part among them. -/
theorem exists_marks_of_windows {s : Text} {ws : List TimeWindow} (h : windows s = .ok ws) :
    ∃ ms : List Mark, (∃ p, .part p ∈ ms) ∧ Spells s (ms.flatMap Mark.tokens) := by
  obtain ⟨ts, its, ps, hspells, hgrouped, hne, hps, -⟩ := windows_eq_ok_iff.mp h
  obtain ⟨ms, rfl, rfl⟩ :=
    hgrouped.exists_marks hspells.isWritten (exists_mapM_eq_ok_iff.mp ⟨_, hps⟩)
  refine ⟨ms, ?_, hspells⟩
  obtain ⟨it, hit⟩ := List.exists_mem_of_ne_nil _ hne
  obtain ⟨m, hm, hmem⟩ := List.mem_flatMap.mp hit
  cases m with
  | comma => cases hmem
  | part p => exact ⟨p, hm⟩

end Parts

end RoadRules.Condition
