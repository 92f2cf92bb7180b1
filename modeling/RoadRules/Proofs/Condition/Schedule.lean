import RoadRules.Proofs.Condition.Grammar
import RoadRules.Proofs.Condition.Items

set_option autoImplicit false

/-! # Schedules are read with their meaning

The tokens, the items and the pieces of a schedule are put together from those of its parts. Each
step is shown for one span or range first and then for a list of them; what follows a list in the
text only has to begin so that it does not run into the last token. -/

namespace RoadRules.Condition

open Text Calendar

/-- Whether a text begins so that it does not run into a token before it. -/
def Apart (s : Text) : Prop := ∀ c, s.head? = some c → c.isAlpha = false ∧ c ≠ ':'

section Apart

variable {s : Text}

theorem Apart.nil : Apart [] := fun _ h => by cases h

theorem Apart.not_colon (h : Apart s) : s.head? ≠ some (.char ':') := fun hs => (h _ hs).2 rfl

/-- White space does not run into a token before it. -/
theorem Gap.apart (gap : Gap) (h : gap.text ≠ [] ∨ Apart s) : Apart (gap.text ++ s) := by
  intro c hc
  cases hgap : gap.text with
  | nil =>
      rw [hgap] at hc
      exact h.resolve_left (fun hne => hne hgap) c hc
  | cons d rest =>
      have hblank : isBlank d = true := gap.blank d (hgap ▸ List.mem_cons_self)
      rw [hgap] at hc
      obtain rfl : d = c := Option.some.inj hc
      refine ⟨not_isAlpha_of_isBlank hblank, ?_⟩
      rintro rfl
      revert hblank
      decide

theorem Apart.dash : Apart (.char '-' :: s) := by
  rintro c ⟨⟩
  exact ⟨rfl, by decide⟩

theorem Apart.comma : Apart (.char ',' :: s) := by
  rintro c ⟨⟩
  exact ⟨rfl, by decide⟩

end Apart

/-! ## Tokens -/

namespace Clock

theorem isTime (c : Clock) : IsTime c.text := by
  refine ⟨c.hourText, c.minute.text, c.secondText, c.isHour, c.minute.isPair, ?_, rfl⟩
  unfold secondText
  split
  · exact Or.inl rfl
  · rename_i s _
    exact Or.inr ⟨s.text, s.isPair, rfl⟩

theorem spells (c : Clock) {s : Text} {ts : List Token} (h : Spells s ts) (hs : Apart s) :
    Spells (c.text ++ s) (.atom (.time c.text) :: ts) :=
  Spells.token (t := .atom (.time c.text)) c.isTime hs.not_colon h

end Clock

theorem Gap.spells (gap : Gap) {s : Text} {ts : List Token} (h : Spells s ts) :
    Spells (gap.text ++ s) ts :=
  h.blanks gap.blank

theorem spells_dash (before after : Gap) {s : Text} {ts : List Token} (h : Spells s ts) :
    Spells (before.text ++ .char '-' :: (after.text ++ s)) (.dash :: ts) :=
  before.spells (Spells.token (t := .dash) trivial trivial (after.spells h))

theorem spells_comma (before after : Gap) {s : Text} {ts : List Token} (h : Spells s ts) :
    Spells (before.text ++ .char ',' :: (after.text ++ s)) (.comma :: ts) :=
  before.spells (Spells.token (t := .comma) trivial trivial (after.spells h))

/-- A cycle whose names are short words. -/
class WordNames (ι : Type) [NamedCycle ι] : Prop where
  -- There is a letter in every name, and nothing else.
  isWritten : ∀ a : ι, (Token.atom (.word (NamedCycle.name a))).IsWritten
  -- Every name is shorter than the name of a dimension.
  isShort : ∀ a : ι, (Text.ofString (NamedCycle.name a)).length < 6

instance : WordNames Weekday where
  isWritten d := by cases d <;> exact ⟨by decide, by decide⟩
  isShort d := by cases d <;> decide

instance : WordNames Month where
  isWritten m := by cases m <;> exact ⟨by decide, by decide⟩
  isShort m := by cases m <;> decide

def nameToken {ι : Type} [NamedCycle ι] (a : ι) : Token := .atom (.word (NamedCycle.name a))

theorem spells_name {ι : Type} [NamedCycle ι] [WordNames ι] (a : ι) {s : Text}
    {ts : List Token} (h : Spells s ts) (hs : Apart s) :
    Spells (Text.ofString (NamedCycle.name a) ++ s) (nameToken a :: ts) :=
  Spells.token (t := nameToken a) (WordNames.isWritten a) (fun c hc => (hs c hc).1) h

def Span.tokens {ι : Type} [NamedCycle ι] : Span ι → List Token
  | one a => [nameToken a]
  | range a _ _ b => [nameToken a, .dash, nameToken b]

theorem Span.spells {ι : Type} [NamedCycle ι] [WordNames ι] (x : Span ι) {s : Text}
    {ts : List Token} (h : Spells s ts) (hs : Apart s) : Spells (x.text ++ s) (x.tokens ++ ts) := by
  cases x with
  | one a => exact spells_name a h hs
  | range a before after b =>
      have hrest := spells_dash before after (spells_name b h hs)
      simpa [text, tokens, List.append_assoc] using
        spells_name a hrest (before.apart (Or.inr Apart.dash))

def ClockRange.tokens (r : ClockRange) : List Token :=
  [.atom (.time r.start.text), .dash, .atom (.time r.stop.text)]

theorem ClockRange.spells (r : ClockRange) {s : Text} {ts : List Token} (h : Spells s ts)
    (hs : Apart s) : Spells (r.text ++ s) (r.tokens ++ ts) := by
  have hrest := spells_dash r.before r.after (r.stop.spells h hs)
  simpa [text, tokens, List.append_assoc] using
    r.start.spells hrest (r.before.apart (Or.inr Apart.dash))

namespace Series

variable {τ : Type}

/-- The tokens of a list: a comma before every item but the first. -/
def tokens (itemTokens : τ → List Token) (series : Series τ) : List Token :=
  itemTokens series.first ++ series.others.flatMap fun o => .comma :: itemTokens o.2.2

theorem spells {itemText : τ → Text} {itemTokens : τ → List Token}
    (hitem : ∀ (x : τ) {s : Text} {ts : List Token}, Spells s ts → Apart s →
      Spells (itemText x ++ s) (itemTokens x ++ ts))
    (series : Series τ) {s : Text} {ts : List Token} (h : Spells s ts) (hs : Apart s) :
    Spells (series.text itemText ++ s) (series.tokens itemTokens ++ ts) := by
  obtain ⟨first, others⟩ := series
  -- the other items, and that the first item does not run into them
  have hothers : Spells (othersText itemText others ++ s)
        ((others.flatMap fun o => .comma :: itemTokens o.2.2) ++ ts) ∧
      Apart (othersText itemText others ++ s) := by
    induction others with
    | nil => exact ⟨h, hs⟩
    | cons o rest ih =>
        obtain ⟨before, after, x⟩ := o
        constructor
        · simpa [othersText, List.append_assoc] using
            spells_comma before after (hitem x ih.1 ih.2)
        · simpa [othersText, List.append_assoc] using
            before.apart (Or.inr Apart.comma)
  simpa [text, tokens, List.append_assoc] using hitem first hothers.1 hothers.2

end Series

namespace Schedule

def partTokens {τ : Type} (itemTokens : τ → List Token) (part : Option (Series τ)) : List Token :=
  match part with
  | none => []
  | some series => series.tokens itemTokens

/-- The tokens of a schedule: those of its parts with nothing between them. -/
def tokens (s : Schedule) : List Token :=
  partTokens Span.tokens s.months ++
    (partTokens Span.tokens s.days ++ partTokens ClockRange.tokens s.times)

theorem spells_part {τ : Type} {itemText : τ → Text} {itemTokens : τ → List Token}
    (hitem : ∀ (x : τ) {s : Text} {ts : List Token}, Spells s ts → Apart s →
      Spells (itemText x ++ s) (itemTokens x ++ ts))
    (part : Option (Series τ)) {s : Text} {ts : List Token} (h : Spells s ts)
    (hs : part.isSome → Apart s) :
    Spells (partText itemText part ++ s) (partTokens itemTokens part ++ ts) := by
  cases part with
  | none => exact h
  | some series => exact series.spells hitem h (hs rfl)

/-- A schedule is put together from its tokens. -/
theorem spells (s : Schedule) : Spells s.text s.tokens := by
  have htimes : Spells (partText ClockRange.text s.times)
      (partTokens ClockRange.tokens s.times) := by
    simpa using spells_part (fun r _ _ => r.spells) s.times .nil fun _ => Apart.nil
  have hdays : Spells (partText Span.text s.days ++
        (s.afterDays.text ++ partText ClockRange.text s.times))
      (partTokens Span.tokens s.days ++ partTokens ClockRange.tokens s.times) := by
    refine spells_part (fun x _ _ => x.spells) s.days (s.afterDays.spells htimes) fun hd => ?_
    apply s.afterDays.apart
    cases ht : s.times with
    | none => exact Or.inr Apart.nil
    | some series => exact Or.inl (s.parted' hd (by rw [ht]; rfl))
  refine spells_part (fun x _ _ => x.spells) s.months (s.afterMonths.spells hdays) fun hm => ?_
  apply s.afterMonths.apart
  by_cases hlater : s.days.isSome ∨ s.times.isSome
  · exact Or.inl (s.parted hm hlater)
  · -- the months are all there is, and only white space follows them
    rw [not_or, Bool.not_eq_true, Option.isSome_eq_false_iff, Bool.not_eq_true,
      Option.isSome_eq_false_iff, Option.isNone_iff_eq_none, Option.isNone_iff_eq_none] at hlater
    right
    rw [hlater.1, hlater.2]
    exact s.afterDays.apart (Or.inr Apart.nil)

end Schedule

/-! ## Items -/

def Span.item {ι : Type} [NamedCycle ι] : Span ι → Item
  | one a => .single (.word (NamedCycle.name a))
  | range a _ _ b => .range (.word (NamedCycle.name a)) (.word (NamedCycle.name b))

def ClockRange.item (r : ClockRange) : Item := .range (.time r.start.text) (.time r.stop.text)

section Grouping

variable {ts : List Token} {its : List Item}

theorem Span.grouped {ι : Type} [NamedCycle ι] (x : Span ι) (h : Grouped ts its)
    (hdash : ts.head? ≠ some .dash) : Grouped (x.tokens ++ ts) (x.item :: its) := by
  cases x with
  | one a => exact .single hdash h
  | range a before after b => exact .range h

theorem ClockRange.grouped (r : ClockRange) (h : Grouped ts its)
    (_ : ts.head? ≠ some .dash) : Grouped (r.tokens ++ ts) (r.item :: its) :=
  .range h

theorem Series.grouped {τ : Type} {itemTokens : τ → List Token} {item : τ → Item}
    (hitem : ∀ (x : τ) {ts : List Token} {its : List Item}, Grouped ts its →
      ts.head? ≠ some .dash → Grouped (itemTokens x ++ ts) (item x :: its))
    (series : Series τ) (h : Grouped ts its) (hdash : ts.head? ≠ some .dash) :
    Grouped (series.tokens itemTokens ++ ts) (series.items.map item ++ its) := by
  obtain ⟨first, others⟩ := series
  have hothers : Grouped ((others.flatMap fun o => .comma :: itemTokens o.2.2) ++ ts)
        ((others.map fun o => item o.2.2) ++ its) ∧
      ((others.flatMap fun o => Token.comma :: itemTokens o.2.2) ++ ts).head? ≠ some .dash := by
    induction others with
    | nil => exact ⟨h, hdash⟩
    | cons o rest ih =>
        constructor
        · simpa [List.append_assoc] using Grouped.comma (hitem o.2.2 ih.1 ih.2)
        · simp
  simpa [tokens, items, Function.comp_def, List.append_assoc] using
    hitem first hothers.1 hothers.2

namespace Schedule

def items (s : Schedule) : List Item :=
  (partItems s.months).map Span.item ++
    ((partItems s.days).map Span.item ++ (partItems s.times).map ClockRange.item)

theorem grouped_part {τ : Type} {itemTokens : τ → List Token} {item : τ → Item}
    (hitem : ∀ (x : τ) {ts : List Token} {its : List Item}, Grouped ts its →
      ts.head? ≠ some .dash → Grouped (itemTokens x ++ ts) (item x :: its))
    (hfirst : ∀ (x : τ) (ts : List Token), (itemTokens x ++ ts).head? ≠ some .dash)
    (part : Option (Series τ)) (h : Grouped ts its ∧ ts.head? ≠ some .dash) :
    Grouped (partTokens itemTokens part ++ ts) ((partItems part).map item ++ its) ∧
      (partTokens itemTokens part ++ ts).head? ≠ some .dash := by
  cases part with
  | none => exact h
  | some series =>
      refine ⟨series.grouped hitem h.1 h.2, ?_⟩
      simpa [partTokens, Series.tokens, List.append_assoc] using
        hfirst series.first ((series.others.flatMap fun o => .comma :: itemTokens o.2.2) ++ ts)

theorem head?_span {ι : Type} [NamedCycle ι] (x : Span ι) (ts : List Token) :
    (x.tokens ++ ts).head? ≠ some .dash := by
  cases x <;> simp [Span.tokens, nameToken]

theorem head?_clockRange (r : ClockRange) (ts : List Token) :
    (r.tokens ++ ts).head? ≠ some .dash := by
  simp [ClockRange.tokens]

theorem grouped (s : Schedule) : Grouped s.tokens s.items := by
  have hend : Grouped [] [] ∧ ([] : List Token).head? ≠ some .dash := ⟨.nil, by simp⟩
  have htimes := grouped_part (fun r => r.grouped) head?_clockRange s.times hend
  have hdays := grouped_part (fun x => x.grouped) head?_span s.days htimes
  have hmonths := grouped_part (fun x => x.grouped) head?_span s.months hdays
  simpa [tokens, items] using hmonths.1

end Schedule

end Grouping

/-! ## Times of day -/

theorem IsPair.not_colon {s : Text} (h : IsPair s) : .char ':' ∉ s := by
  obtain ⟨a, b, ha, hb, rfl⟩ := h
  simp [(ne_colon_of_isDecimalDigit ha).symm, (ne_colon_of_isDecimalDigit hb).symm]

theorem IsHour.not_colon {s : Text} (h : IsHour s) : .char ':' ∉ s := by
  rcases h with h | ⟨a, ha, rfl⟩
  · exact h.not_colon
  · simp [(ne_colon_of_isDecimalDigit ha).symm]

section TimeParts

variable {hour minute second : Text}

theorem timeParts_minute (hhour : IsHour hour) (hminute : IsPair minute) :
    timeParts (hour ++ .char ':' :: minute) =
      [(natural? hour).getD 0, (natural? minute).getD 0] := by
  unfold timeParts
  rw [splitAt_append_cons hhour.not_colon, splitAt_of_not_mem hminute.not_colon]
  rfl

theorem timeParts_second (hhour : IsHour hour) (hminute : IsPair minute) (hsecond : IsPair second) :
    timeParts (hour ++ .char ':' :: (minute ++ .char ':' :: second)) =
      [(natural? hour).getD 0, (natural? minute).getD 0, (natural? second).getD 0] := by
  unfold timeParts
  rw [splitAt_append_cons hhour.not_colon, splitAt_append_cons hminute.not_colon,
    splitAt_of_not_mem hsecond.not_colon]
  rfl

end TimeParts

namespace Clock

theorem timeParts_text (c : Clock) :
    timeParts c.text = c.hour :: c.minute.value :: (c.second.map Sixtieth.value).toList := by
  unfold text secondText
  cases c.second with
  | none =>
      simp only [List.append_nil]
      rw [timeParts_minute c.isHour c.minute.isPair, c.reads, c.minute.reads]
      rfl
  | some s =>
      rw [timeParts_second c.isHour c.minute.isPair s.isPair, c.reads, c.minute.reads, s.reads]
      rfl

/-- The seconds that are read are below sixty. -/
theorem second_lt (c : Clock) : (timeParts c.text).getD 2 0 < 60 := by
  rw [timeParts_text]
  cases c.second with
  | none => simp
  | some s => simpa using s.value_lt

theorem timeOfDay_text (c : Clock) (h : c.IsOfDay) (endsRange : Bool) :
    timeOfDay endsRange c.text = .ok c.time := by
  have hhour : c.hour < 24 := h
  have hminute := c.minute.value_lt
  have hsecond := c.second_lt
  have hzero : (timeParts c.text).getD 0 0 = c.hour := by simp [timeParts_text]
  have hone : (timeParts c.text).getD 1 0 = c.minute.value := by simp [timeParts_text]
  unfold timeOfDay
  simp only [hzero, hone]
  rw [if_neg (by omega), if_neg (by omega)]
  rfl

/-- The end of the day is read as midnight, where a range may end. -/
theorem timeOfDay_endOfDay (c : Clock) (h : c.IsEndOfDay) :
    timeOfDay true c.text = .ok c.time := by
  rw [c.time_endOfDay h]
  obtain ⟨hhour, hminute, hsecond⟩ := h
  have hzero : (timeParts c.text).getD 0 0 = 24 := by simp [timeParts_text, hhour]
  have hone : (timeParts c.text).getD 1 0 = 0 := by simp [timeParts_text, hminute]
  have htwo : (timeParts c.text).getD 2 0 = 0 := by
    rw [timeParts_text]
    cases hs : c.second with
    | none => simp
    | some s => simpa using hsecond s hs
  unfold timeOfDay
  simp only [hzero, hone, htwo]
  rfl

end Clock

/-! ## Pieces -/

def Span.selection {ι : Type} [NamedCycle ι] (x : Span ι) : Selection ι := ⟨fun i => x.holds i⟩

theorem Span.selection_range {ι : Type} [NamedCycle ι] (a b : ι) (before after : Gap) :
    (Span.range a before after b).selection = .range a b :=
  Selection.ext fun i => (Selection.selects_range a b i).symm

theorem Span.selection_one {ι : Type} [NamedCycle ι] (a : ι) :
    (Span.one a).selection = .ofList [a] :=
  Selection.ext fun i => by simp [selection, holds, Selection.ofList]

theorem Span.piece_days (x : Span Weekday) : x.item.piece = .ok (.days x.selection) := by
  cases x with
  | one a => simp [item, Item.piece, wordPiece, weekday?_name, selection_one]
  | range a before after b =>
      simp [item, Item.piece, wordRangePiece, weekday?_name, selection_range]

theorem Span.piece_months (x : Span Month) : x.item.piece = .ok (.months x.selection) := by
  cases x with
  | one a => simp [item, Item.piece, wordPiece, weekday?_month, month?_name, selection_one]
  | range a before after b =>
      simp [item, Item.piece, wordRangePiece, weekday?_month, month?_name, selection_range]

theorem ClockRange.piece_hours (r : ClockRange) : r.item.piece = .ok (.hours r.hours) := by
  have hstart := r.start.timeOfDay_text r.start_ofDay false
  have hstop : timeOfDay true r.stop.text = .ok r.stop.time :=
    r.stop_ofDay.elim (fun h => r.stop.timeOfDay_text h true) r.stop.timeOfDay_endOfDay
  show (timeOfDay false r.start.text >>= fun a => timeOfDay true r.stop.text >>= fun b =>
    pure (Piece.hours ⟨a, b⟩)) = _
  rw [hstart, hstop]
  rfl

namespace Schedule

def pieces (s : Schedule) : List Piece :=
  (partItems s.months).map (fun x => .months x.selection) ++
    ((partItems s.days).map (fun x => .days x.selection) ++
      (partItems s.times).map fun r => .hours r.hours)

theorem mapM_piece {τ : Type} {item : τ → Item} {piece : τ → Piece}
    (h : ∀ x, (item x).piece = .ok (piece x)) (xs : List τ) :
    (xs.map item).mapM Item.piece = .ok (xs.map piece) := by
  induction xs with
  | nil => rfl
  | cons x rest ih =>
      rw [List.map_cons, List.mapM_cons, h, ih]
      rfl

theorem mapM_items (s : Schedule) : s.items.mapM Item.piece = .ok s.pieces := by
  unfold items pieces
  rw [List.mapM_append, List.mapM_append, mapM_piece Span.piece_months,
    mapM_piece Span.piece_days, mapM_piece ClockRange.piece_hours]
  rfl

theorem daysOf_pieces (s : Schedule) : daysOf s.pieces = selection s.days := by
  ext d
  rw [selects_daysOf, Bool.eq_iff_iff]
  simp [pieces, selection, List.any_map, Function.comp_def, Piece.holdsDay, Span.selection]

theorem monthsOf_pieces (s : Schedule) : monthsOf s.pieces = selection s.months := by
  ext m
  rw [selects_monthsOf, Bool.eq_iff_iff]
  simp [pieces, selection, List.any_map, Function.comp_def, Piece.holdsMonth, Span.selection]

theorem hoursOf_pieces (s : Schedule) :
    hoursOf s.pieces = (partItems s.times).map ClockRange.hours := by
  simp [pieces, hoursOf, List.filterMap_append, List.filterMap_map]

/-- **The windows of a schedule** are those of its pieces. -/
theorem windowsOf_pieces (s : Schedule) : windowsOf s.pieces = s.windows := by
  unfold windowsOf windows
  rw [daysOf_pieces, monthsOf_pieces, hoursOf_pieces]
  cases s.times with
  | none => rfl
  | some series => simp [partItems, Series.items, Function.comp_def]

theorem partItems_ne_nil {τ : Type} {part : Option (Series τ)} (h : part.isSome) :
    partItems part ≠ [] := by
  cases part with
  | none => cases h
  | some series => simp [partItems, Series.items]

theorem items_ne_nil (s : Schedule) : s.items ≠ [] := by
  intro hnil
  simp only [items, List.append_eq_nil_iff, List.map_eq_nil_iff] at hnil
  obtain ⟨hmonths, hdays, htimes⟩ := hnil
  rcases s.listed with h | h | h
  · exact partItems_ne_nil h hmonths
  · exact partItems_ne_nil h hdays
  · exact partItems_ne_nil h htimes

/-- **A schedule is read with its windows**, with any white space around it. -/
theorem windows_trim (s : Schedule) : Condition.windows (trim s.text) = .ok s.windows :=
  windows_eq_ok_iff.mpr ⟨s.tokens, s.items, s.pieces, s.spells.trim, s.grouped, s.items_ne_nil,
    s.mapM_items, s.windowsOf_pieces⟩

end Schedule

end RoadRules.Condition
