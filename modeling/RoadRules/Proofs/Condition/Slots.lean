import RoadRules.Proofs.Condition.Accepted
import RoadRules.Proofs.Condition.Names

set_option autoImplicit false

/-! # What a restriction keeps of its conditions

A condition of an accepted tag is either a comparison, which fills the place for the weight or for
the height, or it gives windows. Only a comparison whose name has an unusual i is lost, since its
axis has no place. So a restriction without windows and bounds, which always holds, comes only from
conditions that are all lost (`Restriction.read_keeps`). -/

namespace RoadRules

open Text Condition

namespace Condition

/-- Whether a condition is recognised as a comparison, which is by the name at its beginning. -/
def IsNamed (s : Text) : Prop := (axis? s).isSome = true

/-- Whether a condition is recognised as a comparison, but its name has an unusual i. -/
def IsLost (s : Text) : Prop := IsNamed s ∧ HasUnusualI (s.take 6)

instance (s : Text) : Decidable (IsNamed s) := inferInstanceAs (Decidable ((axis? s).isSome = true))

instance (s : Text) : Decidable (IsLost s) :=
  inferInstanceAs (Decidable (IsNamed s ∧ HasUnusualI (s.take 6)))

theorem isNamed_of_axis? {s : Text} {p : Text × Text} (h : axis? s = some p) : IsNamed s :=
  Option.isSome_iff_exists.mpr ⟨p, h⟩

theorem not_isNamed_of_axis? {s : Text} (h : axis? s = none) : ¬ IsNamed s := by
  simp [IsNamed, h]

/-- The windows of a condition: none if it is a comparison. -/
def windowsFrom (s : Text) : List TimeWindow :=
  if IsNamed s then [] else (windows s).toOption.getD []

/-! ## The windows of a condition -/

theorem windowsOf_ne_nil (ps : List Piece) : windowsOf ps ≠ [] := by
  unfold windowsOf
  split
  · exact List.cons_ne_nil _ _
  · rename_i hhours
    simpa using hhours

/-- A condition that is read as windows has at least one. -/
theorem ne_nil_of_windows {s : Text} {ws : List TimeWindow} (h : windows s = .ok ws) :
    ws ≠ [] := by
  obtain ⟨_, _, ps, -, -, -, -, rfl⟩ := windows_eq_ok_iff.mp h
  exact windowsOf_ne_nil ps

section Clauses

variable {α : Type} [Quantity α] {key inner s a rest axis : Text} {c : Clause α}
  {cs : List (Clause α)} {parts : List Text}

/-- **A comparison is lost just when its axis has no unit.** -/
theorem unit?_eq_none_iff_of_axis? (h : axis? s = some (a, rest)) :
    unit? a = none ↔ HasUnusualI (s.take 6) := by
  obtain ⟨axis, name, gap, hname, -, rfl, rfl, -⟩ := axis?_eq_some_iff.mp h
  rw [unit?_lower_eq_none_iff hname, ← length_of_spells hname, List.take_left]

theorem windowList_of_clause (h : clause key s = .ok c) : c.windowList = windowsFrom s := by
  unfold windowsFrom
  rcases clause_cases h with ⟨haxis, ws, hws, rfl⟩ | ⟨axis, rest, b, haxis, -, rfl⟩
  · rw [if_neg (not_isNamed_of_axis? haxis), hws]
    rfl
  · rw [if_pos (isNamed_of_axis? haxis)]
    rfl

theorem windowsFrom_ne_nil (h : clause key s = .ok c) (hnamed : ¬ IsNamed s) :
    windowsFrom s ≠ [] := by
  rcases clause_cases h with ⟨-, ws, hws, -⟩ | ⟨axis, rest, b, haxis, -⟩
  · unfold windowsFrom
    rw [if_neg hnamed, hws]
    exact ne_nil_of_windows hws
  · exact absurd (isNamed_of_axis? haxis) hnamed

/-- A clause is a bound just when the condition states it. -/
theorem eq_bound_iff (h : clause key s = .ok c) {b : Comparison α} :
    c = .bound axis b ↔ bound? key s = .ok (some (axis, b)) := by
  rcases clause_cases h with ⟨haxis, ws, -, rfl⟩ | ⟨a, rest, b', -, hbound, rfl⟩
  · unfold bound?
    rw [haxis]
    exact ⟨nofun, nofun⟩
  · rw [hbound]
    simp

/-! ## The places for bounds -/

omit [Quantity α] in
/-- A place is filled once if some clause bounds its axis, and no clause bounds it twice. -/
theorem length_toList_boundOn? (hnodup : (axesOf cs).Nodup) :
    (cs.findSome? (Clause.boundOn? axis)).toList.length = (axesOf cs).count axis := by
  induction cs with
  | nil => rfl
  | cons d rest ih =>
      cases d with
      | windows ws => exact ih hnodup
      | bound a b =>
          have hcons : axesOf (.bound a b :: rest) = a :: axesOf rest := rfl
          rw [hcons] at hnodup ⊢
          obtain ⟨hfirst, hrest⟩ := List.nodup_cons.mp hnodup
          by_cases haxis : a = axis
          · subst haxis
            rw [List.findSome?_cons_of_isSome (by simp [Clause.boundOn?]),
              List.count_cons_self, List.count_eq_zero.mpr hfirst]
            simp [Clause.boundOn?]
          · rw [List.findSome?_cons_of_isNone (by simp [Clause.boundOn?, haxis]), ih hrest,
              List.count_cons_of_ne haxis]

/-- The axes with a unit are those with a place. -/
theorem count_add_count (axes : List Text) :
    axes.count weightAxis + axes.count heightAxis = axes.countP fun a => (unit? a).isSome := by
  induction axes with
  | nil => rfl
  | cons a rest ih =>
      have hapart : weightAxis ≠ heightAxis := by decide
      rw [List.countP_cons, List.count_cons, List.count_cons, ← ih]
      unfold unit?
      by_cases hweight : a = weightAxis
      · subst hweight
        simp [hapart]
        omega
      · by_cases hheight : a = heightAxis
        · subst hheight
          simp [hweight]
          omega
        · simp [hweight, hheight]

/-! ## All conditions -/

/-- **What a restriction keeps of its conditions**: the windows of all of them, of which those that
are no comparisons have at least one each, and as many bounds as there are comparisons that are not
lost, each of them stated by a condition. -/
structure Keeps (key : Text) (conditions : List Text) (r : Restriction α) : Prop where
  windows : r.windows = conditions.flatMap windowsFrom
  windows_ne_nil : ∀ s ∈ conditions, ¬ IsNamed s → windowsFrom s ≠ []
  bounds : (r.weight.toList ++ r.height.toList).length =
    conditions.countP fun s => decide (IsNamed s ∧ ¬ IsLost s)
  weight : ∀ b, r.weight = some b ↔ ∃ s ∈ conditions, bound? key s = .ok (some (weightAxis, b))
  height : ∀ b, r.height = some b ↔ ∃ s ∈ conditions, bound? key s = .ok (some (heightAxis, b))

/-- The places that are filled are as many as the comparisons that are not lost. -/
theorem countP_axes (conditions : List Text) :
    (conditions.filterMap fun s => (axis? s).map Prod.fst).countP (fun a => (unit? a).isSome) =
      conditions.countP fun s => decide (IsNamed s ∧ ¬ IsLost s) := by
  rw [List.countP_filterMap]
  refine List.countP_congr fun s _ => ?_
  cases haxis : axis? s with
  | none => simp [not_isNamed_of_axis? haxis]
  | some p =>
      have hlost : unit? p.1 = none ↔ HasUnusualI (s.take 6) := unit?_eq_none_iff_of_axis? haxis
      have hnamed : IsNamed s := isNamed_of_axis? haxis
      simp [IsLost, hnamed, ← hlost, Option.isSome_iff_ne_none]

/-- Conditions that are read together are kept. -/
theorem keeps_assemble {text raw : Text} (h : clauses key inner [] parts = .ok cs) :
    Keeps key (parts.map trim) (assemble key text raw cs) := by
  obtain ⟨hread, hnodup, -⟩ := clauses_eq_ok_iff.mp h
  have hforall : List.Forall₂ (fun s c => clause key s = .ok c) (parts.map trim) cs := by
    rw [List.forall₂_map_left_iff]
    exact hread.imp fun _ _ hc => (readPart_eq_ok_iff.mp hc).2
  have hclause : ∀ s ∈ parts.map trim, ∃ c ∈ cs, clause key s = .ok c := exists_of_forall₂ hforall
  have hbound : ∀ axis b, cs.findSome? (Clause.boundOn? axis) = some b ↔
      ∃ s ∈ parts.map trim, bound? key s = .ok (some (axis, b)) := by
    intro axis b
    rw [findSome?_boundOn?_iff hnodup]
    constructor
    · intro hmem
      obtain ⟨s, hs, hc⟩ := (mem_iff_of_forall₂ hforall).mp hmem
      exact ⟨s, hs, (eq_bound_iff hc).mp rfl⟩
    · rintro ⟨s, hs, hb⟩
      obtain ⟨c, hcs, hc⟩ := hclause s hs
      exact (eq_bound_iff hc).mpr hb ▸ hcs
  refine ⟨?_, fun s hs hnamed => ?_, ?_, hbound weightAxis, hbound heightAxis⟩
  · exact (flatMap_of_forall₂ hforall fun _ _ hc => (windowList_of_clause hc).symm).symm
  · obtain ⟨c, -, hc⟩ := hclause s hs
    exact windowsFrom_ne_nil hc hnamed
  · calc
      ((cs.findSome? (Clause.boundOn? weightAxis)).toList ++
          (cs.findSome? (Clause.boundOn? heightAxis)).toList).length
        = (axesOf cs).count weightAxis + (axesOf cs).count heightAxis := by
          rw [List.length_append, length_toList_boundOn? hnodup, length_toList_boundOn? hnodup]
      _ = (axesOf cs).countP fun a => (unit? a).isSome := count_add_count _
      _ = (parts.map trim).countP fun s => decide (IsNamed s ∧ ¬ IsLost s) := by
          rw [← countP_axes, List.filterMap_map, axesOf_eq hread]
          rfl

/-- **Nothing is kept just when all conditions are lost.** -/
theorem Keeps.eq_nil_iff {conditions : List Text} {r : Restriction α}
    (h : Keeps key conditions r) :
    r.windows = [] ∧ r.weight = none ∧ r.height = none ↔ ∀ s ∈ conditions, IsLost s := by
  have hbounds : r.weight = none ∧ r.height = none ↔
      ∀ s ∈ conditions, ¬ (IsNamed s ∧ ¬ IsLost s) := by
    have hzero : (r.weight.toList ++ r.height.toList).length = 0 ↔
        r.weight = none ∧ r.height = none := by simp
    rw [← hzero, h.bounds, List.countP_eq_zero]
    simp only [decide_eq_true_eq]
  rw [hbounds, h.windows, List.flatMap_eq_nil_iff]
  constructor
  · rintro ⟨hwindows, hlost⟩ s hs
    have hnamed : IsNamed s := by
      by_contra hno
      exact h.windows_ne_nil s hs hno (hwindows s hs)
    by_contra hkept
    exact hlost s hs ⟨hnamed, hkept⟩
  · intro hall
    refine ⟨fun s hs => ?_, fun s hs hkept => hkept.2 (hall s hs)⟩
    unfold windowsFrom
    rw [if_pos (hall s hs).1]

end Clauses

end Condition

section Keeping

variable {α : Type} [Quantity α] {key : Text} {value : Option Text} {r : Restriction α}

/-- **What a restriction keeps of its tag.** Each condition of an accepted tag that is no comparison
gives at least one window, and the comparisons fill one place each unless they are lost. Nothing is
kept, so that the restriction always holds for every vehicle, just when all conditions are lost. -/
theorem Restriction.read_keeps (h : Restriction.read key value = .ok r) :
    ∃ conditions, HasConditions value conditions ∧ conditions ≠ [] ∧ Keeps key conditions r ∧
      (r.windows = [] ∧ r.weight = none ∧ r.height = none ↔ ∀ s ∈ conditions, IsLost s) := by
  cases hsplit : splitValue value with
  | error e =>
      rw [read_of_not_split hsplit] at h
      cases h
  | ok p =>
      obtain ⟨text, inner⟩ := p
      rw [read_of_splitValue hsplit] at h
      obtain ⟨cs, hcs, rfl⟩ := map_eq_ok.mp h
      have hkeeps : Keeps key ((splitAt (.char ';') inner).map trim)
          (assemble key text (value.getD []) cs) := keeps_assemble hcs
      have hne : (splitAt (.char ';') inner).map trim ≠ [] := by
        simpa using splitAt_ne_nil (.char ';') inner
      exact ⟨_, hasConditions_of_splitValue hsplit, hne, hkeeps, hkeeps.eq_nil_iff⟩

/-- A value with hours, a bound that is kept and one that is lost. -/
def oddBounds : Text := "no @ (Mo-Fr 07:00-09:00; WEIGHT > 7.5 t; he\u0131ght<=3)"

theorem Restriction.read_keeps_oddBounds :
    ∃ (r : Restriction ℚ) (conditions : List Text),
      Restriction.read "hgv:conditional" (some oddBounds) = .ok r ∧
        HasConditions (some oddBounds) conditions ∧ Keeps "hgv:conditional" conditions r := by
  have hread : (Restriction.read "hgv:conditional" (some oddBounds) :
      Except Fault (Restriction ℚ)).isOk = true := by decide +kernel
  obtain ⟨r, hr⟩ := exists_eq_ok hread
  obtain ⟨conditions, hconditions, -, hkeeps, -⟩ := Restriction.read_keeps hr
  exact ⟨r, conditions, hr, hconditions, hkeeps⟩

end Keeping

/-! ## A condition that is lost -/

/-- A bound on the weight, without a unit, that has a small i without a dot. -/
def lostWeight : Text := "no @ (we\u0131ght>3)"

/-- **Not every accepted tag keeps a window or a bound.** -/
theorem Restriction.read_lost :
    ¬ ∀ (key : Text) (value : Option Text) (r : Restriction ℚ), Restriction.read key value = .ok r →
      r.windows ≠ [] ∨ r.weight ≠ none ∨ r.height ≠ none := by
  intro hall
  have hread : (Restriction.read "access:conditional" (some lostWeight) :
      Except Fault (Restriction ℚ)) =
        .ok ⟨"access:conditional", "no", [], none, none, lostWeight⟩ := by
    decide +kernel
  rcases hall _ _ _ hread with h | h | h <;> exact h rfl

end RoadRules
