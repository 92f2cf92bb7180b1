import RoadRules.Proofs.Number.Characters
import RoadRules.Proofs.Number.Undefined
import RoadRules.Proofs.Text.Parts
import RoadRules.Proofs.Text.Removal
import RoadRules.Proofs.Travel.Cost
import RoadRules.Way.Speed

set_option autoImplicit false

/-! # Which texts state a speed

A documented speed is one numeral, followed by a unit or by none. Units are removed from a text
wherever they stand, so other texts are taken too; those that are taken and are documented are the
ones in which no unit stands before the end (`Speed.isDocumented_iff`). The number that is taken is
positive unless the numeral says that it is undefined: what is refused are the numbers that are at
most zero, and an undefined one is not (`Speed.ofText?_accepts`). -/

namespace RoadRules.Speed

open Text

def units : List Text := kilometreUnits ++ [mileUnit]

/-- **A documented speed**: one numeral, and then possibly a unit, with or without white space
before it. -/
def IsDocumented (t : Text) : Prop :=
  ∃ numeral : Text, (Numeral.ofText? numeral).isSome = true ∧
    (t = numeral ∨ ∃ gap unit : Text, (∀ c ∈ gap, isBlank c = true) ∧ unit ∈ units ∧
      t = numeral ++ gap ++ unit)

/-- Whether no unit stands in a text except for one at its end. -/
def UnitsAtEnd (t : Text) : Prop :=
  ∃ body unit : Text, (∀ u ∈ units, ¬ u <:+: body) ∧ (unit = [] ∨ unit ∈ units) ∧
    t = body ++ unit

/-! ## Units -/

variable {s t body unit u : Text}

/-- Every unit ends in a letter that it has nowhere else. -/
theorem exists_eq_append_of_mem_units (hu : u ∈ units) :
    ∃ letters : Text, (CodePoint.char 'h') ∉ letters ∧ u = letters ++ [.char 'h'] := by
  have hall : ∀ u ∈ units, (CodePoint.char 'h') ∉ u.dropLast ∧ u = u.dropLast ++ [.char 'h'] := by
    decide
  exact ⟨u.dropLast, hall u hu⟩

/-- No unit is the end of another one. -/
theorem eq_of_suffix : ∀ u ∈ units, ∀ v ∈ units, u <:+ v → u = v := by
  decide

/-- A text without the letter that units end in has no unit. -/
theorem not_infix_of_not_mem (h : (CodePoint.char 'h') ∉ t) (hu : u ∈ units) : ¬ u <:+: t := by
  obtain ⟨letters, -, rfl⟩ := exists_eq_append_of_mem_units hu
  exact fun hwithin => h (hwithin.subset (List.mem_append_right _ (List.mem_singleton_self _)))

/-- **A unit at the end** of a text without units is the only one. -/
theorem not_infix_append (hbody : ∀ v ∈ units, ¬ v <:+: body) (hunit : unit ∈ units)
    (hu : u ∈ units) (hne : u ≠ unit) : ¬ u <:+: body ++ unit := by
  intro hwithin
  obtain ⟨letters, hletters, hunit_eq⟩ := exists_eq_append_of_mem_units hunit
  have hend : u <:+ body ++ unit ∨ u <:+: body ++ letters := by
    rw [hunit_eq, ← List.append_assoc] at hwithin ⊢
    exact List.infix_concat_iff.mp hwithin
  rcases hend with hsuffix | hbefore
  · -- Of two ends of a text the shorter is an end of the longer.
    rcases List.suffix_or_suffix_of_suffix hsuffix (List.suffix_append body unit) with h | h
    · exact hne (eq_of_suffix u hu unit hunit h)
    · exact hne (eq_of_suffix unit hunit u hu h).symm
  · obtain ⟨letters', -, rfl⟩ := exists_eq_append_of_mem_units hu
    exact hbody _ hu (infix_of_append_of_last hletters hbefore)

theorem removeAll_unit (hbody : ∀ v ∈ units, ¬ v <:+: body) (hunit : unit ∈ units) :
    removeAll unit (body ++ unit) = body := by
  obtain ⟨letters, hletters, rfl⟩ := exists_eq_append_of_mem_units hunit
  exact removeAll_append hletters (hbody _ hunit)

/-- Units that do not occur leave a text as it is. -/
theorem removeAll_of_not_within (h : ¬ u <:+: t) : removeAll u t = t :=
  replaceAll_of_not_occursIn (Bool.eq_false_iff.mpr fun hoccurs => h (occursIn_iff.mp hoccurs))

theorem foldl_removeAll_of_not_within {us : List Text} (h : ∀ u ∈ us, ¬ u <:+: t) :
    us.foldl (fun t unit => removeAll unit t) t = t := by
  induction us with
  | nil => rfl
  | cons u rest ih =>
      obtain ⟨hu, hrest⟩ := List.forall_mem_cons.mp h
      rw [List.foldl_cons, removeAll_of_not_within hu]
      exact ih hrest

/-- A unit at the end of a text without units is removed. -/
theorem foldl_removeAll_append {us : List Text} (hus : us ⊆ units) (hunit : unit ∈ us)
    (hbody : ∀ v ∈ units, ¬ v <:+: body) :
    us.foldl (fun t unit => removeAll unit t) (body ++ unit) = body := by
  induction us with
  | nil => cases hunit
  | cons u rest ih =>
      obtain ⟨hu, hrest⟩ := List.cons_subset.mp hus
      rw [List.foldl_cons]
      by_cases hsame : u = unit
      · rw [hsame, removeAll_unit hbody (hsame ▸ hu)]
        exact foldl_removeAll_of_not_within fun v hv => hbody v (hrest hv)
      · have hmem : unit ∈ rest := (List.mem_cons.mp hunit).resolve_left (Ne.symm hsame)
        rw [removeAll_of_not_within (not_infix_append hbody (hrest hmem) hu hsame)]
        exact ih hrest hmem

/-! ## Accepted texts -/

/-- White space at the end of the part before a unit is all that trimming takes away from it. -/
theorem exists_eq_trim_append (h : trim (body ++ unit) = body ++ unit) :
    ∃ gap : Text, (∀ c ∈ gap, isBlank c = true) ∧ body = trim body ++ gap := by
  obtain ⟨start, gap, hstart, hgap, hbody⟩ := exists_around_trim body
  have hnil : start = [] := by
    rw [hbody, List.append_assoc, List.append_assoc] at h
    exact eq_nil_of_trim_append hstart h
  rw [hnil, List.nil_append] at hbody
  exact ⟨gap, hgap, hbody⟩

/-- Without miles the rest of the text is the numeral. -/
theorem map_fst_parts?_of_kilometres {t : Text}
    (hremoved : kilometreUnits.foldl (fun t unit => removeAll unit t) (trim (lower s)) = t)
    (hmile : ¬ mileUnit <:+: t) : (parts? s).map Prod.fst = Numeral.ofText? (trim t) := by
  have hoccurs : occursIn mileUnit (trim t) = false := by
    obtain ⟨gap, gap', -, -, ht⟩ := exists_around_trim t
    refine Bool.eq_false_iff.mpr fun hoccurs => hmile ?_
    exact (occursIn_iff.mp hoccurs).trans ⟨gap, gap', ht.symm⟩
  unfold parts?
  dsimp only
  rw [hremoved, hoccurs, if_neg Bool.false_ne_true, Option.map_map]
  exact Option.map_id'

/-- **What is read of a text without units before its end** is what stands before the unit. -/
theorem map_fst_parts? (hbody : ∀ v ∈ units, ¬ v <:+: body) (hunit : unit = [] ∨ unit ∈ units)
    (hs : trim (lower s) = body ++ unit) :
    (parts? s).map Prod.fst = Numeral.ofText? (trim body) := by
  have hkilometre : kilometreUnits ⊆ units := List.subset_append_left _ _
  have hmile : ¬ mileUnit <:+: body := hbody _ (by decide)
  rcases hunit with rfl | hunit
  · refine map_fst_parts?_of_kilometres ?_ hmile
    rw [hs, List.append_nil]
    exact foldl_removeAll_of_not_within fun u hu => hbody u (hkilometre hu)
  · rcases List.mem_append.mp hunit with hunit' | hunit'
    · refine map_fst_parts?_of_kilometres ?_ hmile
      rw [hs]
      exact foldl_removeAll_append hkilometre hunit' hbody
    · obtain rfl := List.mem_singleton.mp hunit'
      have hremoved : kilometreUnits.foldl (fun t unit => removeAll unit t) (body ++ mileUnit) =
          body ++ mileUnit := by
        refine foldl_removeAll_of_not_within fun u hu => ?_
        refine not_infix_append hbody hunit (hkilometre hu) ?_
        rintro rfl
        revert hu
        decide
      have hoccurs : occursIn mileUnit (body ++ mileUnit) = true :=
        occursIn_iff.mpr (List.suffix_append _ _).isInfix
      have htrim : trim (body ++ mileUnit) = body ++ mileUnit := hs ▸ trim_trim (lower s)
      unfold parts?
      dsimp only
      rw [hs, hremoved, htrim, hoccurs, if_pos rfl, removeAll_unit hbody hunit, Option.map_map]
      exact Option.map_id'

/-- **The accepted texts that are documented.** -/
theorem isDocumented_iff {n : Numeral} {miles : Bool} (h : parts? s = some (n, miles)) :
    IsDocumented (trim (lower s)) ↔ UnitsAtEnd (trim (lower s)) := by
  constructor
  · rintro ⟨numeral, hnumeral, hform⟩
    have hletter : (CodePoint.char 'h') ∉ numeral := by
      intro hmem
      obtain ⟨m, hm⟩ := Option.isSome_iff_exists.mp hnumeral
      have hchar := Numeral.forall_mem_of_ofText? hm _ hmem
      revert hchar
      decide
    rcases hform with heq | ⟨gap, unit, hgap, hunit, heq⟩
    · refine ⟨numeral, [], fun u hu => not_infix_of_not_mem hletter hu, Or.inl rfl, ?_⟩
      rw [heq, List.append_nil]
    · refine ⟨numeral ++ gap, unit, fun u hu => not_infix_of_not_mem ?_ hu, Or.inr hunit, heq⟩
      intro hmem
      rcases List.mem_append.mp hmem with hmem | hmem
      · exact hletter hmem
      · exact absurd (hgap _ hmem) (by decide)
  · rintro ⟨body, unit, hbody, hunit, heq⟩
    have hread := map_fst_parts? hbody hunit heq
    rw [h] at hread
    have htrim : trim (body ++ unit) = body ++ unit := heq ▸ trim_trim (lower s)
    obtain ⟨gap, hgap, hsplit⟩ := exists_eq_trim_append htrim
    refine ⟨trim body, by rw [← hread]; rfl, ?_⟩
    rcases hunit with rfl | hunit
    · rw [List.append_nil] at heq htrim
      exact Or.inl (heq.trans htrim.symm)
    · exact Or.inr ⟨gap, unit, hgap, hunit, by rw [heq, ← hsplit]⟩

/-! ## Speeds in floating point -/

/-- A speed is the number that its numeral stands for, converted if it counts miles. -/
theorem eq_of_ofText? {α : Type} [Quantity α] {n : Numeral} {miles : Bool} {v : α}
    (hparts : parts? s = some (n, miles)) (h : ofText? s = some v) :
    v = if miles then Quantity.ofNumeral n * kilometresPerMile else Quantity.ofNumeral n := by
  unfold ofText? at h
  rw [hparts, Option.bind_some] at h
  dsimp only at h
  generalize (if miles = true then _ else _ : α) = speed at h ⊢
  split at h
  · cases h
  · exact (Option.some.inj h).symm

/-- A speed is undefined just when its numeral is. -/
theorem isNaN_iff_of_parts? {n : Numeral} {miles : Bool} {v : Float}
    (hparts : parts? s = some (n, miles)) (h : ofText? s = some v) :
    v.isNaN = true ↔ n = .undefined := by
  have hmile : isNonzero (kilometresPerMile : Float).toModel.unpack = true := by decide +kernel
  rw [eq_of_ofText? hparts h, ← Numeral.isNaN_toFloat n]
  cases miles with
  | false => exact Iff.rfl
  | true =>
      rw [if_pos rfl, Float.isNaN_mul hmile]
      exact Iff.rfl

/-- **What the accepted texts are.** If a text states a speed, what is left of it without units is a
numeral. The speed is positive just when the numeral is not the undefined number, and otherwise it
is undefined itself; and the text, trimmed and in lower case, is a documented speed just when no
unit stands in it before its end. -/
theorem ofText?_accepts {v : Float} (h : ofText? s = some v) :
    ∃ n miles, parts? s = some (n, miles) ∧ (Quantity.zero < v ↔ n ≠ .undefined) ∧
      (v.isNaN = true ↔ n = .undefined) ∧
      (IsDocumented (trim (lower s)) ↔ UnitsAtEnd (trim (lower s))) := by
  obtain ⟨⟨n, miles⟩, hparts, -⟩ := Option.bind_eq_some_iff.mp h
  have hnan := isNaN_iff_of_parts? hparts h
  refine ⟨n, miles, hparts, ?_, hnan, isDocumented_iff hparts⟩
  rw [Float.pos_iff_of_not_le (not_le_zero_of_ofText? h), ← Bool.not_eq_true, hnan]

theorem ofText?_accepts_kilometres :
    ∃ v : Float, ofText? "60 km/h" = some v ∧ Quantity.zero < v ∧ IsDocumented "60 km/h" := by
  have hread : (ofText? "60 km/h" : Option Float).map Float.isNaN = some false := by decide +kernel
  obtain ⟨v, hv, hnan⟩ := Option.map_eq_some_iff.mp hread
  obtain ⟨n, miles, -, hpos, hundefined, hdocumented⟩ := ofText?_accepts hv
  refine ⟨v, hv, hpos.mpr fun h => ?_, hdocumented.mpr ⟨"60 ", "km/h", ?_, ?_, ?_⟩⟩
  · rw [hundefined.mpr h] at hnan
    cases hnan
  · decide
  · decide
  · decide

/-- **Not every accepted text states a positive number.** -/
theorem ofText?_undefined :
    ¬ ∀ (s : Text) (v : Float), ofText? s = some v →
      Quantity.zero < v ∧ v.isNaN = false ∧ IsDocumented (trim (lower s)) := by
  intro hall
  have hread : ((ofText? "nan" : Option Float).map Float.isNaN) = some true := by decide +kernel
  obtain ⟨v, hv, hnan⟩ := Option.map_eq_some_iff.mp hread
  rw [(hall "nan" v hv).2.1] at hnan
  cases hnan

end RoadRules.Speed
