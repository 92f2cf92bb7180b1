import RoadRules.Proofs.Condition.Joined
import RoadRules.Proofs.Condition.Refused
import RoadRules.Proofs.Condition.Slots

set_option autoImplicit false

/-! # Runs that are not times

A run in a condition is a digit with all the digits, colons, points and letters h that follow it. A
run that is not a time is refused as one, as a whole, if it is the first such run and does not begin
with a time. If it begins with one, this is taken off as a token, and the rest is read for itself
(`Restriction.read_malformed_iff`); so two times without anything between them are accepted. -/

namespace RoadRules

open Text Condition

namespace Condition

/-! ## Runs -/

/-- Whether a text is a run: a digit, and what may follow one. -/
def IsRun (s : Text) : Prop :=
  ∃ c rest, s = c :: rest ∧ isDecimalDigit c = true ∧ ∀ d ∈ rest, continuesRun d = true

instance : (s : Text) → Decidable (IsRun s)
  | [] => isFalse nofun
  | c :: rest =>
    decidable_of_iff (isDecimalDigit c = true ∧ ∀ d ∈ rest, continuesRun d = true)
      ⟨fun h => ⟨c, rest, rfl, h⟩, fun ⟨_, _, heq, h⟩ => by cases heq; exact h⟩

/-- Whether a character may stand outside of runs. -/
def IsFiller (c : CodePoint) : Prop := c.isAlpha = true ∨ c = '-' ∨ c = ',' ∨ isBlank c = true

instance (c : CodePoint) : Decidable (IsFiller c) :=
  inferInstanceAs (Decidable (c.isAlpha = true ∨ c = '-' ∨ c = ',' ∨ isBlank c = true))

/-- **The runs of a text** that is made of runs and of letters, dashes, commas and white space. -/
inductive HasRuns : Text → List Text → Prop
  | nil : HasRuns [] []
  | filler {c : CodePoint} {s : Text} {rs : List Text} :
      IsFiller c → HasRuns s rs → HasRuns (c :: s) rs
  -- A run goes on as long as it can.
  | run {r s : Text} {rs : List Text} :
      IsRun r → (∀ c, s.head? = some c → continuesRun c = false) → HasRuns s rs →
        HasRuns (r ++ s) (r :: rs)

section Runs

variable {s r t : Text} {c : CodePoint} {rs before after : List Text}

theorem continuesRun_of_isDecimalDigit (h : isDecimalDigit c = true) : continuesRun c = true := by
  simp [continuesRun, h]

theorem IsRun.continuesRun (h : IsRun r) (hc : c ∈ r) : continuesRun c = true := by
  obtain ⟨d, rest, rfl, hd, hrest⟩ := h
  rcases List.mem_cons.mp hc with rfl | hc
  · exact continuesRun_of_isDecimalDigit hd
  · exact hrest c hc

theorem not_isBlank_of_continuesRun (h : Condition.continuesRun c = true) : isBlank c = false := by
  simp only [Condition.continuesRun, Bool.or_eq_true, beq_iff_eq] at h
  rcases h with ((hdigit | rfl) | rfl) | rfl
  · exact not_isBlank_of_isDecimalDigit hdigit
  all_goals decide

/-- Every character of a written time may stand in a run. -/
theorem IsTime.continuesRun (h : IsTime t) (hc : c ∈ t) : Condition.continuesRun c = true := by
  rcases h.mem hc with hdigit | rfl
  · exact continuesRun_of_isDecimalDigit hdigit
  · decide

namespace HasRuns

/-- The characters of a text with runs. -/
theorem mem (h : HasRuns s rs) (hc : c ∈ s) : IsFiller c ∨ Condition.continuesRun c = true := by
  induction h with
  | nil => cases hc
  | filler hfiller _ ih =>
      rcases List.mem_cons.mp hc with rfl | hc
      · exact Or.inl hfiller
      · exact ih hc
  | run hrun _ _ ih =>
      rcases List.mem_append.mp hc with hc | hc
      · exact Or.inr (hrun.continuesRun hc)
      · exact ih hc

/-- Characters outside of runs in front of a text make no run. -/
theorem fillers (hfillers : ∀ c ∈ t, IsFiller c) (h : HasRuns s rs) : HasRuns (t ++ s) rs := by
  induction t with
  | nil => exact h
  | cons c rest ih =>
      obtain ⟨hc, hrest⟩ := List.forall_mem_cons.mp hfillers
      exact .filler hc (ih hrest)

theorem ne_nil (h : HasRuns s rs) (hne : rs ≠ []) : s ≠ [] := by
  cases h with
  | nil => exact absurd rfl hne
  | filler => exact List.cons_ne_nil _ _
  | run hrun =>
      obtain ⟨c, rest, rfl, -⟩ := hrun
      exact List.cons_ne_nil _ _

/-- A text with runs can stand between semicolons in parentheses. -/
theorem isPart (h : HasRuns s rs) : IsPart s := by
  have hnot : ∀ c : CodePoint, ¬ IsFiller c → Condition.continuesRun c = false → c ∉ s := by
    intro c hfiller hrun hc
    rcases h.mem hc with hc | hc
    · exact hfiller hc
    · rw [hrun] at hc
      cases hc
  exact ⟨hnot _ (by decide) (by decide), hnot _ (by decide) (by decide),
    hnot _ (by decide) (by decide)⟩

/-- Characters at the start of a text that begin no run can be left out. -/
theorem dropWhile {p : CodePoint → Bool} (hp : ∀ c, isDecimalDigit c = true → p c = false)
    (h : HasRuns s rs) : HasRuns (s.dropWhile p) rs := by
  induction h with
  | nil => exact .nil
  | @filler c s rs hfiller hs ih =>
      by_cases hc : p c = true
      · rwa [List.dropWhile_cons_of_pos hc]
      · rw [List.dropWhile_cons_of_neg hc]
        exact .filler hfiller hs
  | @run r s rs hrun hends hs _ =>
      obtain ⟨c, rest, hr, hc, -⟩ := id hrun
      have hsame : (r ++ s).dropWhile p = r ++ s := by
        rw [hr, List.cons_append, List.dropWhile_cons_of_neg (by simp [hp c hc])]
      rw [hsame]
      exact .run hrun hends hs

/-- A blank at the end of a text belongs to no run. -/
theorem dropBlank (hblank : isBlank c = true) (h : HasRuns (s ++ [c]) rs) : HasRuns s rs := by
  generalize hs : s ++ [c] = whole at h
  induction h generalizing s with
  | nil => simp at hs
  | @filler d rest rs hd hrest ih =>
      cases s with
      | nil =>
          cases hs
          exact hrest
      | cons a s =>
          cases hs
          exact .filler hd (ih rfl)
  | @run r rest rs hrun hends hrest ih =>
      rcases List.eq_nil_or_concat rest with rfl | ⟨rest, d, rfl⟩
      · -- the last character would belong to the run
        have hmem : c ∈ r := by
          rw [List.append_nil] at hs
          rw [← hs]
          simp
        rw [not_isBlank_of_continuesRun (hrun.continuesRun hmem)] at hblank
        cases hblank
      · rw [List.concat_eq_append, ← List.append_assoc] at hs
        obtain ⟨rfl, hd⟩ := List.append_inj' hs rfl
        cases hd
        refine .run hrun ?_ (ih List.concat_eq_append.symm)
        cases rest with
        | nil => exact nofun
        | cons a rest => exact hends

/-- Trimming a text does not change its runs. -/
theorem trim (h : HasRuns s rs) : HasRuns (trim s) rs := by
  have hstart : HasRuns (trimStart s) rs := h.dropWhile fun c => not_isBlank_of_isDecimalDigit
  exact trimEnd_induction (P := fun s => HasRuns s rs) (fun _ _ hc hs => hs.dropBlank hc) hstart

end HasRuns

/-! ## The first run that is not a time -/

/-- What is read as a time at the start of a run does not reach beyond the run. -/
theorem leadingTime?_eq_none (hno : ¬ ∃ t, IsTime t ∧ t <+: r)
    (hends : ∀ c, s.head? = some c → Condition.continuesRun c = false) :
    leadingTime? (r ++ s) = none := by
  rw [Option.eq_none_iff_forall_not_mem]
  intro t ht
  obtain ⟨htime, hprefix⟩ := leadingTime?_eq_some ht
  rcases List.prefix_or_prefix_of_prefix hprefix (List.prefix_append r s) with h | ⟨u, rfl⟩
  · exact hno ⟨t, htime, h⟩
  · cases u with
    | nil => exact hno ⟨r, by simpa using htime, List.prefix_rfl⟩
    | cons c u =>
        have hc : Condition.continuesRun c = true := htime.continuesRun (by simp)
        have hhead : s.head? = some c := by
          rw [List.prefix_append_right_inj] at hprefix
          obtain ⟨rest, rfl⟩ := hprefix
          rfl
        rw [hends c hhead] at hc
        cases hc

/-- Outside of runs a token is read, or white space, and what follows it has the same runs. -/
theorem HasRuns.exists_lexeme (hc : IsFiller c) (h : HasRuns s rs) :
    ∃ token n, lexeme c s = .ok (token, n) ∧ HasRuns (s.drop n) rs := by
  rcases hc with halpha | rfl | rfl | hblank
  · have hword : lexeme c s = .ok (some (.atom (.word (c :: s.takeWhile CodePoint.isAlpha))),
        (s.takeWhile CodePoint.isAlpha).length) := by
      simp [lexeme, not_isDecimalDigit_of_isAlpha halpha, halpha]
    refine ⟨_, _, hword, ?_⟩
    rw [drop_length_takeWhile]
    exact h.dropWhile fun d => not_isAlpha_of_isDecimalDigit
  · exact ⟨some .dash, 0, rfl, h⟩
  · exact ⟨some .comma, 0, rfl, h⟩
  · exact ⟨none, 0, lexeme_blank hblank, h⟩

/-- **The first run that is not a time** is where no token can be read, if it does not begin with a
time. -/
theorem HasRuns.tokens_eq (h : HasRuns s (before ++ r :: after))
    (hbefore : ∀ b ∈ before, IsTime b) (hno : ¬ ∃ t, IsTime t ∧ t <+: r) :
    tokens s = .error (.malformedTime r) := by
  -- On the length, since a word may be of any length.
  induction hlen : s.length using Nat.strongRecOn generalizing s before with
  | ind len ih =>
      generalize hruns : before ++ r :: after = rs at h
      cases h with
      | nil => simp at hruns
      | @filler c s _ hfiller hs =>
          obtain ⟨token, n, hlexeme, hrest⟩ := hs.exists_lexeme hfiller
          have hshorter : (s.drop n).length < len := by
            simp only [List.length_cons, List.length_drop] at hlen ⊢
            omega
          subst hruns
          rw [tokens_cons hlexeme, ih _ hshorter hrest hbefore rfl]
          rfl
      | @run b s rs hrun hends hs =>
          obtain ⟨c, rest, rfl, hc, hrest⟩ := hrun
          cases before with
          | nil =>
              -- This is the run.
              cases hruns
              have hnone : leadingTime? (c :: (rest ++ s)) = none := leadingTime?_eq_none hno hends
              have hwhole : (rest ++ s).takeWhile Condition.continuesRun = rest :=
                takeWhile_append_of_head hrest hends
              have hlexeme : lexeme c (rest ++ s) = .error (.malformedTime (c :: rest)) := by
                simp [lexeme, hc, hnone, hwhole]
              rw [List.cons_append, tokens, hlexeme]
              rfl
          | cons d before =>
              cases hruns
              obtain ⟨htime, hothers⟩ := List.forall_mem_cons.mp hbefore
              have hcolon : s.head? ≠ some (.char ':') := by
                intro hhead
                have hends := hends _ hhead
                revert hends
                decide
              have hlead : leadingTime? (c :: (rest ++ s)) = some (c :: rest) :=
                leadingTime?_append htime hcolon
              have hlexeme : lexeme c (rest ++ s) =
                  .ok (some (.atom (.time (c :: rest))), rest.length) := by
                simp [lexeme, hc, hlead]
              have hshorter : s.length < len := by
                simp only [List.cons_append, List.length_cons, List.length_append] at hlen
                omega
              rw [List.cons_append, tokens_cons hlexeme, List.drop_left,
                ih _ hshorter hs hothers rfl]
              rfl

end Runs

/-! ## Refusals -/

/-- What is refused as a time is one, or it is a run that does not begin with one. -/
theorem Refused.isTime_or {s : Text} {e : Refusal} (h : Refused s e)
    (hcode : e.code = .invalidTime) :
    IsTime e.offending ∨ ¬ ∃ t, IsTime t ∧ t <+: e.offending := by
  cases h with
  | @token before rest c _ hlexeme =>
      rcases lexeme_eq_error hlexeme with ⟨hnone, rfl⟩ | rfl
      · refine Or.inr fun ⟨t, ht, hprefix⟩ => ?_
        have hrun : c :: rest.takeWhile continuesRun <+: c :: rest :=
          List.cons_prefix_cons.mpr ⟨rfl, List.takeWhile_prefix _⟩
        have hread := exists_isTime_prefix_iff.mp ⟨t, ht, hprefix.trans hrun⟩
        rw [hnone] at hread
        cases hread
      · cases hcode
  | order h => rcases h with rfl | rfl | rfl <;> cases hcode
  | @item ts its it hspells hgrouped hit hpiece =>
      rcases piece_eq_error hpiece with ⟨a, hmem, hshown, htime⟩ | ⟨a, b, -, rfl | rfl⟩
      · have hwritten := hspells.isWritten _ ((hgrouped.tokens_isInfix hit).mem hmem)
        cases a with
        | time t =>
            rw [hshown]
            exact Or.inl hwritten
        | word w => exact absurd (htime hcode) (by simp [Atom.isTime])
      · cases hcode
      · cases hcode

end Condition

section Reading

variable {α : Type} [Quantity α]

/-- **When a run is refused as a time.** Of the runs of a condition consider the first that is not a
time. The condition is refused as one with an invalid time, and the whole run is shown, just when
the condition does not begin with the name of a dimension and the run does not begin with a time. -/
theorem Restriction.read_malformed_iff (key : Text) {value s r : Text} {before after : List Text}
    (hvalue : IsValue value) (hruns : HasRuns s (before ++ r :: after))
    (hbefore : ∀ b ∈ before, IsTime b) (hr : ¬ IsTime r) :
    (∃ cause, (Restriction.read key (some (tagText value [s])) : Except Fault (Restriction α)) =
        .error (.refused key cause) ∧ cause.code = .invalidTime ∧ cause.offending = r) ↔
      ¬ IsNamed (trim s) ∧ ¬ ∃ t, IsTime t ∧ t <+: r := by
  have hsome : ¬ (trim s).isEmpty = true := by
    simpa using hruns.trim.ne_nil (by simp)
  have hread : (Restriction.read key (some (tagText value [s])) : Except Fault (Restriction α)) =
      (clause key (trim s)).map fun c => assemble key (trim value) (tagText value [s]) [c] := by
    show readAlone key value s = _
    rw [readAlone_eq hvalue hruns.isPart, readPart, if_neg hsome]
  rw [hread]
  constructor
  · rintro ⟨cause, hcause, hcode, rfl⟩
    rcases clause_eq_refused (map_eq_error.mp hcause) with ⟨a, rest, -, hbound⟩ | ⟨haxis, hrefused⟩
    · -- A bound is not refused for a time.
      rcases boundAfter_eq_refused hbound with rfl | rfl | (rfl | rfl) | rfl <;> cases hcode
    · exact ⟨not_isNamed_of_axis? haxis, (hrefused.isTime_or hcode).resolve_left hr⟩
  · rintro ⟨hnamed, hno⟩
    have haxis : Condition.axis? (trim s) = none := by
      simpa [IsNamed] using hnamed
    have hwindows : Condition.windows (trim s) = .error (.malformedTime r) := by
      unfold Condition.windows
      rw [hruns.trim.tokens_eq hbefore hno]
      rfl
    exact ⟨.malformedTime r, map_eq_error.mpr (clause_of_windows_eq_error haxis hwindows), rfl, rfl⟩

/-- Hours of which the last has a minute with one digit. -/
def Condition.shortMinute : Text := "Mo-Fr 07:00-19:5"

theorem Restriction.read_malformed_iff_shortMinute :
    IsValue "no" ∧ HasRuns shortMinute (["07:00"] ++ "19:5" :: []) ∧
      (∀ b ∈ ([("07:00" : Text)] : List Text), IsTime b) ∧ ¬ IsTime "19:5" ∧
        ∃ cause, (Restriction.read "access:conditional" (some (tagText "no" [shortMinute])) :
            Except Fault (Restriction ℚ)) = .error (.refused "access:conditional" cause) ∧
          cause.code = .invalidTime ∧ cause.offending = "19:5" := by
  have hvalue : IsValue "no" := by decide
  have htext : shortMinute = Text.ofString "Mo-Fr " ++ (Text.ofString "07:00" ++
      (Text.ofString "-" ++ (Text.ofString "19:5" ++ []))) := by decide +kernel
  have hruns : HasRuns shortMinute (["07:00"] ++ "19:5" :: []) := by
    rw [htext]
    refine .fillers (by decide) (.run (by decide) ?_ (.fillers (by decide) (.run (by decide) nofun
      .nil)))
    rintro _ ⟨⟩
    decide
  have hbefore : ∀ b ∈ ([("07:00" : Text)] : List Text), IsTime b := by decide
  have hr : ¬ IsTime "19:5" := by decide
  exact ⟨hvalue, hruns, hbefore, hr, (Restriction.read_malformed_iff "access:conditional" hvalue
    hruns hbefore hr).mpr ⟨by decide +kernel, by decide⟩⟩

end Reading

/-! ## Times without anything between them -/

/-- Two daily ranges without a comma between them. -/
def gluedHours : Text := "07:00-19:0008:00-09:00"

theorem hasRuns_gluedHours : HasRuns gluedHours (["07:00"] ++ "19:0008:00" :: ["09:00"]) := by
  have htext : gluedHours = Text.ofString "07:00" ++ (Text.ofString "-" ++
      (Text.ofString "19:0008:00" ++ (Text.ofString "-" ++ (Text.ofString "09:00" ++ [])))) := by
    decide +kernel
  rw [htext]
  refine .run (by decide) ?_ (.fillers (by decide) (.run (by decide) ?_
    (.fillers (by decide) (.run (by decide) nofun .nil))))
  · rintro _ ⟨⟩
    decide
  · rintro _ ⟨⟩
    decide

/-- **Not every run that is not a time is refused.** -/
theorem Restriction.read_glued :
    ¬ ∀ (key value s r : Text) (before after : List Text), IsValue value →
      HasRuns s (before ++ r :: after) → (∀ b ∈ before, IsTime b) → ¬ IsTime r →
        ¬ IsNamed (trim s) →
          ∃ cause, (Restriction.read key (some (tagText value [s])) :
              Except Fault (Restriction ℚ)) = .error (.refused key cause) ∧
            cause.code = .invalidTime ∧ cause.offending = r := by
  intro hall
  have hread : (Restriction.read "access:conditional" (some (tagText "no" [gluedHours])) :
      Except Fault (Restriction ℚ)).isOk = true := by decide +kernel
  obtain ⟨cause, hcause, -⟩ := hall "access:conditional" "no" gluedHours "19:0008:00" ["07:00"]
    ["09:00"] (by decide) hasRuns_gluedHours (by decide) (by decide) (by decide +kernel)
  rw [hcause] at hread
  cases hread

end RoadRules
