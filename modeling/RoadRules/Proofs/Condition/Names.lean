import Mathlib.Data.List.DropRight
import RoadRules.Proofs.Condition.Bounds
import RoadRules.Proofs.Condition.Comparisons

set_option autoImplicit false

/-! # Names of dimensions as they may be written

The name of a dimension may be in capital and small letters, and its letter i may have two shapes
that are not in ASCII. In lower case a name is the axis of its dimension just when its i has none of
these shapes (`lower_eq_name_iff`); otherwise it is an axis of its own, without a unit. -/

namespace RoadRules

open Text

namespace Text

variable {s before rest : Text} {c d : CodePoint}

/-- Whether a character is a letter i of a shape that is not in ASCII: a capital with a dot, or a
small one without. -/
def IsUnusualI (c : CodePoint) : Prop := c = '\u0130' ∨ c = '\u0131'

instance : Decidable (IsUnusualI c) := inferInstanceAs (Decidable (c = '\u0130' ∨ c = '\u0131'))

/-- Whether some letter i in a text has an unusual shape. -/
def HasUnusualI (s : Text) : Prop := ∃ c ∈ s, IsUnusualI c

instance : Decidable (HasUnusualI s) := inferInstanceAs (Decidable (∃ c ∈ s, IsUnusualI c))

/-! ## Lower case -/

theorem lowerAmid_of_code (h : c.code < 128) : lowerAmid before rest c = [lowerChar c] := by
  have hne : ∀ d : CodePoint, 128 ≤ d.code → (c == d) = false := by
    intro d hd
    rw [beq_eq_false_iff_ne]
    rintro rfl
    omega
  simp [lowerAmid, hne '\u03a3' (by decide), hne '\u0130' (by decide)]

/-- In ASCII the case of a letter does not depend on the letters beside it. -/
theorem lowerFrom_eq_map (h : ∀ c ∈ s, c.code < 128) : lowerFrom before s = s.map lowerChar := by
  induction s generalizing before with
  | nil => rfl
  | cons c rest ih =>
      obtain ⟨hc, hrest⟩ := List.forall_mem_cons.mp h
      rw [lowerFrom, lowerAmid_of_code hc, ih hrest]
      rfl

theorem exists_code_lowerAmid (before rest : Text) (h : IsUnusualI c) :
    ∃ d ∈ lowerAmid before rest c, 128 ≤ d.code := by
  rcases h with rfl | rfl
  · exact ⟨'\u0307', List.mem_cons_of_mem _ List.mem_cons_self, by decide⟩
  · have hsame : lowerAmid before rest '\u0131' = ['\u0131'] := by
      show [lowerChar '\u0131'] = _
      decide +kernel
    exact ⟨'\u0131', hsame ▸ List.mem_cons_self, by decide⟩

/-- An unusual i leaves something beyond ASCII in the lower case of a text. -/
theorem exists_code_lowerFrom (before : Text) (h : HasUnusualI s) :
    ∃ d ∈ lowerFrom before s, 128 ≤ d.code := by
  induction s generalizing before with
  | nil => exact absurd h (by simp [HasUnusualI])
  | cons c rest ih =>
      obtain ⟨i, hmem, hi⟩ := h
      rcases List.mem_cons.mp hmem with rfl | hmem
      · obtain ⟨d, hd, hcode⟩ := exists_code_lowerAmid before rest hi
        exact ⟨d, List.mem_append_left _ hd, hcode⟩
      · obtain ⟨d, hd, hcode⟩ := ih (c :: before) ⟨i, hmem, hi⟩
        exact ⟨d, List.mem_append_right _ hd, hcode⟩

/-! ## Letters of the names -/

/-- Of the letters that are the same as one of a name, all but the unusual i have it as their
small letter. -/
theorem lowerChar_of_sameLetter (hd : d ∈ dimensionLetters) (h : sameLetter d c = true)
    (hc : ¬ IsUnusualI c) : lowerChar c = d := by
  have hfold : ∀ d ∈ dimensionLetters, sameLetter.fold d = d := by decide
  have hplain : (c == '\u0130' || c == '\u0131') = false := by simpa [IsUnusualI] using hc
  have hsame := beq_iff_eq.mp h
  rw [hfold d hd, sameLetter.fold, hplain] at hsame
  exact hsame.symm

end Text

namespace Condition

variable {name : Text} {axis : Axis}

theorem Axis.mem_dimensionLetters (axis : Axis) {d : CodePoint} (h : d ∈ axis.name) :
    d ∈ dimensionLetters := by
  have hall : ∀ d ∈ axis.name, d ∈ dimensionLetters := by cases axis <;> decide
  exact hall d h

theorem length_of_spells (h : Condition.spells axis.name name = true) : name.length = 6 := by
  have hsix : axis.name.length = 6 := by cases axis <;> rfl
  simp only [Condition.spells, Bool.and_eq_true, beq_iff_eq] at h
  omega

/-- A text that spells a name without an unusual i has the letters of the name as its small
letters. -/
theorem map_lowerChar_of_spells {ds cs : Text} (hletters : ∀ d ∈ ds, d ∈ dimensionLetters)
    (hplain : ∀ c ∈ cs, ¬ IsUnusualI c) (h : Condition.spells ds cs = true) :
    cs.map lowerChar = ds := by
  simp only [Condition.spells, Bool.and_eq_true, beq_iff_eq, List.all_eq_true] at h
  obtain ⟨hlength, hall⟩ := h
  refine List.ext_getElem (by rw [List.length_map, hlength]) fun i hi hi' => ?_
  rw [List.length_map] at hi
  have hpair : (ds[i], cs[i]) ∈ ds.zip cs :=
    List.mem_iff_getElem.mpr ⟨i, by simp [hlength, hi], by simp⟩
  rw [List.getElem_map]
  exact lowerChar_of_sameLetter (hletters _ (List.getElem_mem _)) (hall _ hpair)
    (hplain _ (List.getElem_mem _))

/-- **The axis of a written name** is that of a dimension just when the name is the one of the
dimension and has no unusual i. -/
theorem lower_eq_name_iff (h : Condition.spells axis.name name = true) (axis' : Axis) :
    lower name = axis'.name ↔ ¬ HasUnusualI name ∧ axis' = axis := by
  by_cases hunusual : HasUnusualI name
  · refine ⟨fun heq => ?_, fun h => absurd hunusual h.1⟩
    obtain ⟨d, hd, hcode⟩ := exists_code_lowerFrom [] hunusual
    have hd' : d ∈ axis'.name := heq ▸ hd
    have hascii : ∀ d ∈ dimensionLetters, d.code < 128 := by decide
    exact absurd (hascii d (axis'.mem_dimensionLetters hd')) (by omega)
  · have hplain : ∀ c ∈ name, ¬ IsUnusualI c := fun c hc hi => hunusual ⟨c, hc, hi⟩
    have hascii : ∀ c ∈ name, c.code < 128 := by
      intro c hc
      obtain ⟨d, hd, hsame⟩ := exists_sameLetter_of_spells h hc
      have halpha := (isAlpha_of_sameLetter (axis.mem_dimensionLetters hd) hsame).resolve_right
        (hplain c hc)
      have := CodePoint.isAlpha_iff_code.mp halpha
      omega
    have hlower : lower name = axis.name :=
      (lowerFrom_eq_map hascii).trans
        (map_lowerChar_of_spells (fun d hd => axis.mem_dimensionLetters hd) hplain h)
    rw [hlower, and_iff_right hunusual]
    constructor
    · intro heq
      cases axis <;> cases axis' <;> first | rfl | exact absurd heq (by decide)
    · rintro rfl
      rfl

/-- Only the axes of the dimensions have a unit. -/
theorem unit?_eq_none_iff {a : Text} : unit? a = none ↔ ∀ axis : Axis, a ≠ axis.name := by
  unfold unit?
  constructor
  · intro h axis
    split at h
    · cases h
    · rename_i hweight
      split at h
      · cases h
      · rename_i hheight
        cases axis with
        | weight => exact hweight
        | height => exact hheight
  · intro h
    have hweight : a ≠ weightAxis := h .weight
    have hheight : a ≠ heightAxis := h .height
    rw [if_neg hweight, if_neg hheight]

/-- **The axis of a written name has no unit** just when the name has an unusual i. -/
theorem unit?_lower_eq_none_iff (h : Condition.spells axis.name name = true) :
    unit? (lower name) = none ↔ HasUnusualI name := by
  simp only [unit?_eq_none_iff, ne_eq, lower_eq_name_iff h, not_and]
  constructor
  · intro hall
    by_contra hplain
    exact hall axis hplain rfl
  · exact fun hunusual _ hplain => absurd hunusual hplain

/-! ## Conditions that begin with a name -/

/-- **A condition that begins with the name of a dimension** has the name, white space, and the rest
on one line, which goes on with something else than the word. -/
theorem axis?_eq_some_iff {s a rest : Text} :
    axis? s = some (a, rest) ↔ ∃ (axis : Axis) (name gap : Text),
      Condition.spells axis.name name = true ∧ IsGap gap ∧ s = name ++ (gap ++ rest) ∧
        a = lower name ∧ wordEnds (gap ++ rest) = true ∧ trimStart rest = rest ∧
          .char '\n' ∉ rest := by
  constructor
  · intro h
    unfold axis? at h
    dsimp only at h
    split at h
    · rename_i hbegins
      split at h
      · cases h
      · rename_i hline
        cases h
        rw [Bool.and_eq_true, Bool.or_eq_true] at hbegins
        obtain ⟨hname, hends⟩ := hbegins
        obtain ⟨axis, hname⟩ : ∃ axis : Axis, Condition.spells axis.name (s.take 6) = true :=
          hname.elim (fun h => ⟨.weight, h⟩) fun h => ⟨.height, h⟩
        obtain ⟨gap, hgap, hdrop⟩ := exists_trimStart (s.drop 6)
        refine ⟨axis, s.take 6, gap, hname, hgap, ?_, rfl, hdrop ▸ hends, ?_, by simpa using hline⟩
        · rw [← hdrop, List.take_append_drop]
        · exact List.dropWhile_idempotent _ _
    · cases h
  · rintro ⟨axis, name, gap, hname, hgap, rfl, rfl, hends, hstart, hline⟩
    have hlength := length_of_spells hname
    have htake : (name ++ (gap ++ rest)).take 6 = name := by rw [← hlength, List.take_left]
    have hdrop : (name ++ (gap ++ rest)).drop 6 = gap ++ rest := by
      rw [← hlength, List.drop_left]
    have hspells :
        (Condition.spells weightAxis name || Condition.spells heightAxis name) = true := by
      rw [Bool.or_eq_true]
      cases axis with
      | weight => exact Or.inl hname
      | height => exact Or.inr hname
    have hrest : trimStart (gap ++ rest) = rest := by rw [trimStart_append hgap, hstart]
    have honeLine : rest.contains (.char '\n') = false := by simpa using hline
    unfold axis?
    simp only [htake, hdrop, hspells, hends, hrest, honeLine]
    rfl

end Condition

end RoadRules
