import RoadRules.Proofs.Condition.Accepted
import RoadRules.Proofs.Condition.Names
import RoadRules.Proofs.Text.Words

set_option autoImplicit false

/-! # Words of accepted conditions

An accepted condition is a comparison or a row of marks. The words of letters in marks are names of
days and months, whatever else stands beside them. A comparison has only the letters of a dimension
and of a unit, and none of its words is as long as a name. -/

namespace RoadRules

open Text Condition Calendar

namespace Text

theorem toLower_eq_lowerChar {c : CodePoint} (h : c.isAlpha = true) : c.toLower = lowerChar c := by
  have hcode := CodePoint.isAlpha_iff_code.mp h
  have hascii : c.code < 128 := by omega
  apply CodePoint.eq_of_code_eq
  rw [CodePoint.code_toLower, lowerChar, if_pos hascii]
  by_cases hupper : 65 ≤ c.code ∧ c.code ≤ 90
  · rw [if_pos hupper, if_pos (by simpa using hupper), CodePoint.code_ofCode (by omega)]
  · rw [if_neg hupper, if_neg (by simpa using hupper)]

end Text

namespace Condition

/-! ## Marks -/

section Marks

variable {s w : Text} {ts : List Token} {ms : List Mark}

/-- **The words of a text with tokens** are tokens. -/
theorem Spells.mem_of_hasWord (h : Spells s ts) (hw : HasWord CodePoint.isAlpha s w) :
    .atom (.word w) ∈ ts := by
  induction h with
  | nil => exact absurd hw not_hasWord_nil
  | @blank c s ts hc _ ih =>
      exact ih (HasWord.of_append_left (s := [c]) (by simpa using not_isAlpha_of_isBlank hc) hw)
  | @token t s ts hwritten hends _ ih =>
      match t, hwritten, hends with
      | .atom (.time time), hwritten, _ =>
          have hnone : ∀ c ∈ time, c.isAlpha = false := by
            intro c hc
            rcases IsTime.mem hwritten hc with hdigit | rfl
            · exact not_isAlpha_of_isDecimalDigit hdigit
            · decide
          exact List.mem_cons_of_mem _ (ih (HasWord.of_append_left hnone hw))
      | .atom (.word word), hwritten, hends =>
          cases s with
          | nil =>
              have hwhole : HasWord CodePoint.isAlpha word w := by
                simpa [Token.text, Atom.text] using hw
              rw [hwhole.eq_self hwritten.2]
              exact List.mem_cons_self
          | cons c rest =>
              have hc := hends c rfl
              rcases HasWord.of_append_cons hc hw with hfirst | hrest
              · rw [hfirst.eq_self hwritten.2]
                exact List.mem_cons_self
              · exact List.mem_cons_of_mem _ (ih (hrest.append_left (s := [c]) (by simpa using hc)))
      | .dash, _, _ =>
          exact List.mem_cons_of_mem _
            (ih (HasWord.of_append_left (s := [.char '-']) (by decide) hw))
      | .comma, _, _ =>
          exact List.mem_cons_of_mem _
            (ih (HasWord.of_append_left (s := [.char ',']) (by decide) hw))

/-- The words of a span are the names of its ends. -/
theorem Span.exists_of_mem_tokens {ι : Type} [NamedCycle ι] (x : Span ι)
    (h : .atom (.word w) ∈ x.item.tokens) : ∃ a : ι, w = NamedCycle.name a := by
  cases x with
  | one a =>
      have hmem : Token.atom (.word w) ∈ [Token.atom (.word (NamedCycle.name a))] := h
      simp only [List.mem_singleton, Token.atom.injEq, Atom.word.injEq] at hmem
      exact ⟨a, hmem⟩
  | range a _ _ b =>
      have hmem : Token.atom (.word w) ∈
          [Token.atom (.word (NamedCycle.name a)), .dash, .atom (.word (NamedCycle.name b))] := h
      simp only [List.mem_cons, List.not_mem_nil, Token.atom.injEq, Atom.word.injEq, reduceCtorEq,
        or_false, false_or] at hmem
      exact hmem.elim (fun h => ⟨a, h⟩) fun h => ⟨b, h⟩

/-- The words among marks name days and months. -/
theorem isNamed_of_mem_marks (h : .atom (.word w) ∈ ms.flatMap Mark.tokens) :
    (∃ d : Weekday, w = NamedCycle.name d) ∨ ∃ m : Month, w = NamedCycle.name m := by
  obtain ⟨mark, -, hmem⟩ := List.mem_flatMap.mp h
  cases mark with
  | comma =>
      have hcomma : Token.atom (.word w) ∈ [Token.comma] := hmem
      simp at hcomma
  | part p =>
      cases p with
      | month x => exact Or.inr (x.exists_of_mem_tokens hmem)
      | day x => exact Or.inl (x.exists_of_mem_tokens hmem)
      | time r =>
          have htimes : Token.atom (.word w) ∈
              [Token.atom (.time r.start.text), .dash, .atom (.time r.stop.text)] := hmem
          simp at htimes

end Marks

/-! ## Comparisons -/

/-- The small letters that a comparison may have. -/
def boundLetters : Text := "weightm"

section Comparisons

variable {s w number unit : Text} {c : CodePoint}

theorem IsNumber.not_isAlpha (h : IsNumber number) (hc : c ∈ number) : c.isAlpha = false := by
  have hdigit : isDecimalDigit c = true ∨ c = '.' := by
    rcases h with ⟨-, hdigits⟩ | ⟨whole, fraction, hwhole, -, hfraction, rfl⟩
    · exact Or.inl (hdigits c hc)
    · rcases List.mem_append.mp hc with hc | hc
      · exact Or.inl (hwhole c hc)
      · rcases List.mem_cons.mp hc with rfl | hc
        · exact Or.inr rfl
        · exact Or.inl (hfraction c hc)
  rcases hdigit with hdigit | rfl
  · exact not_isAlpha_of_isDecimalDigit hdigit
  · decide

theorem isWordChar_of_spells {axis : Axis} {name : Text}
    (h : Condition.spells axis.name name = true) (hc : c ∈ name) : isWordChar c = true := by
  obtain ⟨d, hd, hsame⟩ := exists_sameLetter_of_spells h hc
  rcases isAlpha_of_sameLetter (axis.mem_dimensionLetters hd) hsame with halpha | rfl | rfl
  · exact isWordChar_of_isAlpha halpha
  · decide +kernel
  · decide +kernel

/-- A unit has at most one letter, which is one of the two. -/
theorem unit_spec {a : Text} (h : unit = [] ∨ unit? a = some (unit.map CodePoint.toLower)) :
    unit.length ≤ 1 ∧ ∀ c ∈ unit, c.toLower ∈ boundLetters := by
  have hunits : ∀ u ∈ [Text.ofString "t", Text.ofString "m"],
      u.length = 1 ∧ ∀ d ∈ u, d ∈ boundLetters := by decide
  rcases h with rfl | hunit
  · exact ⟨Nat.zero_le 1, nofun⟩
  · have hmem : unit.map CodePoint.toLower ∈ [Text.ofString "t", Text.ofString "m"] := by
      unfold unit? at hunit
      split at hunit
      · rw [← Option.some.inj hunit]
        exact List.mem_cons_self
      · split at hunit
        · rw [← Option.some.inj hunit]
          exact List.mem_cons_of_mem _ List.mem_cons_self
        · cases hunit
    obtain ⟨hlength, hletters⟩ := hunits _ hmem
    rw [List.length_map] at hlength
    exact ⟨hlength.le, fun c hc => hletters _ (List.mem_map_of_mem hc)⟩

/-- **The letters of a comparison** are those of the dimensions and the units. -/
theorem IsComparison.toLower_mem (h : IsComparison s) (hc : c ∈ s) (halpha : c.isAlpha = true) :
    c.toLower ∈ boundLetters := by
  cases h with
  | @intro axis operator name number unit g₁ g₂ g₃ g₄ hname hnumber hunit hg₁ hg₂ hg₃ hg₄ =>
      have hgap : ∀ g, IsGap g → c ∉ g := fun g hg hc => by
        rw [not_isAlpha_of_isBlank (hg c hc)] at halpha
        cases halpha
      have hsymbol : c ∉ Text.ofString operator.symbol := by
        intro hc
        have hall : ∀ c ∈ Text.ofString operator.symbol, c.isAlpha = false := by
          cases operator <;> decide
        rw [hall c hc] at halpha
        cases halpha
      have hdigits : c ∉ number := fun hc => by
        rw [hnumber.not_isAlpha hc] at halpha
        cases halpha
      simp only [List.mem_append, hgap _ hg₁, hgap _ hg₂, hgap _ hg₃, hgap _ hg₄, hsymbol, hdigits,
        or_false, false_or] at hc
      rcases hc with hc | hc
      · obtain ⟨d, hd, hsame⟩ := exists_sameLetter_of_spells hname hc
        have hletter := axis.mem_dimensionLetters hd
        have husual : ¬ IsUnusualI c := by
          rintro (rfl | rfl) <;> revert halpha <;> decide
        rw [toLower_eq_lowerChar halpha, lowerChar_of_sameLetter hletter hsame husual]
        have hall : ∀ d ∈ dimensionLetters, d ∈ boundLetters := by decide
        exact hall d hletter
      · exact (unit_spec hunit).2 c hc

/-- **The words of a comparison** that have letters alone are the name of a dimension and a unit. -/
theorem IsComparison.length_of_hasWord (h : IsComparison s) (hw : HasWord isWordChar s w)
    (hletters : ∀ c ∈ w, c.isAlpha = true) : w.length = 6 ∨ w.length ≤ 1 := by
  cases h with
  | @intro axis operator name number unit g₁ g₂ g₃ g₄ hname hnumber hunit hg₁ hg₂ hg₃ hg₄ =>
      -- An operator parts the name from the number.
      obtain ⟨c, tail, hsymbol⟩ : ∃ c tail, Text.ofString operator.symbol = c :: tail := by
        cases operator <;> exact ⟨_, _, rfl⟩
      have hmarks : ∀ c ∈ Text.ofString operator.symbol, isWordChar c = false := by
        cases operator <;> decide
      rw [hsymbol] at hw hmarks
      obtain ⟨hc, htail⟩ := List.forall_mem_cons.mp hmarks
      have hfront : name ++ (g₁ ++ (c :: tail ++ (g₂ ++ (number ++ (g₃ ++ (unit ++ g₄)))))) =
          (name ++ g₁) ++ c :: (tail ++ (g₂ ++ (number ++ (g₃ ++ (unit ++ g₄))))) := by simp
      rw [hfront] at hw
      rcases hw.of_append_cons hc with hname' | hrest
      · left
        have hword : HasWord isWordChar name w :=
          hname'.of_append_right fun d hd => not_isWordChar_of_isBlank (hg₁ d hd)
        rw [hword.eq_self fun d hd => isWordChar_of_spells hname hd]
        exact length_of_spells hname
      · right
        have hmeasure := hrest.of_append_left htail
        obtain ⟨a, b, hsplit, -⟩ := hmeasure
        have hnone : ∀ g : Text, (∀ d ∈ g, d.isAlpha = false) →
            g.filter CodePoint.isAlpha = [] := fun g hg =>
          List.filter_eq_nil_iff.mpr fun d hd => by simp [hg d hd]
        have hgap : ∀ g, IsGap g → g.filter CodePoint.isAlpha = [] := fun g hg =>
          hnone g fun d hd => not_isAlpha_of_isBlank (hg d hd)
        have hfilter : (g₂ ++ (number ++ (g₃ ++ (unit ++ g₄)))).filter CodePoint.isAlpha =
            unit.filter CodePoint.isAlpha := by
          simp only [List.filter_append, hgap _ hg₂, hgap _ hg₃, hgap _ hg₄,
            hnone _ fun d => hnumber.not_isAlpha, List.nil_append, List.append_nil]
        calc
          w.length = (w.filter CodePoint.isAlpha).length := by
            rw [List.filter_eq_self.mpr hletters]
          _ ≤ ((a ++ (w ++ b)).filter CodePoint.isAlpha).length := by
            simp only [List.filter_append, List.length_append]
            omega
          _ = (unit.filter CodePoint.isAlpha).length := by rw [← hsplit, hfilter]
          _ ≤ unit.length := List.length_filter_le _ _
          _ ≤ 1 := (unit_spec hunit).1

end Comparisons

/-! ## Values -/

section Values

variable {p : CodePoint → Bool} {before after inner w : Text}

/-- Whether a text is what an accepted condition is: a comparison, or a row of marks. -/
def IsAcceptable (s : Text) : Prop :=
  IsComparison s ∨ ∃ ms : List Mark, Spells s (ms.flatMap Mark.tokens)

/-- Whether a character parts conditions from each other, or stands around them. -/
def IsBetween (c : CodePoint) : Prop := isBlank c = true ∨ c = '(' ∨ c = ')' ∨ c = ';'

theorem HasWord.trim (hp : ∀ c, IsBetween c → p c = false) {s : Text} (h : HasWord p s w) :
    HasWord p (Text.trim s) w := by
  obtain ⟨g, g', hg, hg', hs⟩ := exists_trim s
  rw [hs] at h
  exact (h.of_append_left fun c hc => hp c (Or.inl (hg c hc))).of_append_right fun c hc =>
    hp c (Or.inl (hg' c hc))

theorem exists_hasWord_of_joined (hp : ∀ c, IsBetween c → p c = false) {parts : List Text}
    (h : HasWord p (joined [.char ';'] parts) w) : ∃ part ∈ parts, HasWord p part w := by
  induction parts with
  | nil => exact absurd h not_hasWord_nil
  | cons part rest ih =>
      cases rest with
      | nil => exact ⟨part, List.mem_cons_self, by simpa [joined, List.intercalate] using h⟩
      | cons next rest =>
          rw [joined_cons_cons] at h
          rcases h.of_append_cons (hp _ (Or.inr (Or.inr (Or.inr rfl)))) with hfirst | hrest
          · exact ⟨part, List.mem_cons_self, hfirst⟩
          · obtain ⟨q, hq, hword⟩ := ih hrest
            exact ⟨q, List.mem_cons_of_mem _ hq, hword⟩

/-- **A word of what stands after the at sign** is a word of a condition. -/
theorem exists_hasWord_of_enclosed (hp : ∀ c, IsBetween c → p c = false)
    (hafter : Text.trim after = .char '(' :: (inner ++ [.char ')'])) (h : HasWord p after w) :
    ∃ part ∈ splitAt (.char ';') inner, HasWord p (Text.trim part) w := by
  have hopen : p '(' = false := hp _ (Or.inr (Or.inl rfl))
  have hclose : p ')' = false := hp _ (Or.inr (Or.inr (Or.inl rfl)))
  have henclosed := HasWord.trim hp h
  rw [hafter] at henclosed
  have hinner : HasWord p (inner ++ [.char ')']) w :=
    HasWord.of_append_left (s := [.char '(']) (by simpa using hopen) henclosed
  have hconditions : HasWord p (joined [.char ';'] (splitAt (.char ';') inner)) w := by
    rw [joined_splitAt]
    exact hinner.of_append_right (by simpa using hclose)
  obtain ⟨part, hpart, hword⟩ := exists_hasWord_of_joined hp hconditions
  exact ⟨part, hpart, HasWord.trim hp hword⟩

end Values

end Condition

section Reading

variable {α : Type} [Quantity α] {key before after : Text} {r : Restriction α}

/-- **What stands after the at sign of an accepted value**: parentheses around conditions that are
comparisons or rows of marks. -/
theorem exists_acceptable_of_read (hat : .char '@' ∉ before)
    (h : Restriction.read key (some (before ++ .char '@' :: after)) = .ok r) :
    ∃ inner, trim after = .char '(' :: (inner ++ [.char ')']) ∧
      ∀ part ∈ splitAt (.char ';') inner, IsAcceptable (trim part) := by
  obtain ⟨_, inner, cs, hsplit, hcs, -⟩ := exists_clauses_of_read h
  obtain ⟨before', after', hvalue, hat', -, -, hafter, -⟩ := splitValue_eq_ok hsplit
  have hsame : after' = after := by
    have hsides := splitOnce?_append (t := after) hat
    rw [Option.some.inj hvalue, splitOnce?_append hat'] at hsides
    exact congrArg Prod.snd (Option.some.inj hsides)
  rw [hsame] at hafter
  refine ⟨inner, hafter, fun part hpart => ?_⟩
  obtain ⟨c, hc⟩ := clauses_eq_ok hcs part hpart
  rcases clause_eq_ok hc with hcomparison | ⟨ws, hws⟩
  · exact Or.inl hcomparison
  · obtain ⟨ms, -, hspells⟩ := exists_marks_of_windows hws
    exact Or.inr ⟨ms, hspells⟩

end Reading

end RoadRules
