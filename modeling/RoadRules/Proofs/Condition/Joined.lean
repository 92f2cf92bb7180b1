import RoadRules.Proofs.Condition.Clauses
import RoadRules.Proofs.Condition.Value
import RoadRules.Proofs.Number.Rational

set_option autoImplicit false

/-! # Conditions joined by semicolons

A tag with several conditions says what the tags with one of the conditions each say together.
It is accepted just when each of those is and no axis is bounded twice; it has the windows of all
of them in their order, and the bounds of those that have one. If it is refused, then for the reason
for which the first bad condition is refused alone, or because that condition bounds an axis again.
So it does not matter in which order the conditions are written (`Restriction.read_tagText`). -/

namespace RoadRules

open Text Condition

/-- Whether two faults are of one class: refusals with the same code, or the same fault. -/
def Fault.SameClass : Fault → Fault → Prop
  | .refused _ cause, .refused _ cause' => cause.code = cause'.code
  | f, g => f = g

theorem Fault.SameClass.refl (f : Fault) : f.SameClass f := by
  cases f <;> rfl

namespace Condition

/-! ## Tags with conditions -/

/-- The value of a tag: a text, an at sign, and conditions in parentheses. -/
def tagText (value : Text) (parts : List Text) : Text :=
  value ++ " @ (" ++ joined [.char ';'] parts ++ ")"

/-- A text that can stand before the at sign. -/
structure IsValue (value : Text) : Prop where
  notBlank : ∃ c ∈ value, isBlank c = false
  noAt : .char '@' ∉ value

/-- A text that can stand between semicolons in parentheses. -/
structure IsPart (part : Text) : Prop where
  noSemicolon : .char ';' ∉ part
  noOpening : .char '(' ∉ part
  noClosing : .char ')' ∉ part

instance (value : Text) : Decidable (IsValue value) :=
  decidable_of_iff ((∃ c ∈ value, isBlank c = false) ∧ .char '@' ∉ value)
    ⟨fun h => ⟨h.1, h.2⟩, fun h => ⟨h.notBlank, h.noAt⟩⟩

instance (part : Text) : Decidable (IsPart part) :=
  decidable_of_iff (.char ';' ∉ part ∧ .char '(' ∉ part ∧ .char ')' ∉ part)
    ⟨fun h => ⟨h.1, h.2.1, h.2.2⟩, fun h => ⟨h.noSemicolon, h.noOpening, h.noClosing⟩⟩

section Joined

variable {α : Type} [Quantity α] {key value : Text} {parts : List Text}

/-- The restriction that a condition states alone. -/
def readAlone (key value s : Text) : Except Fault (Restriction α) :=
  Restriction.read key (some (tagText value [s]))

theorem splitValue_tagText (hvalue : IsValue value) (hparts : ∀ s ∈ parts, IsPart s) :
    splitValue (some (tagText value parts)) = .ok (trim value, joined [.char ';'] parts) := by
  have hnone : ∀ c : CodePoint, c ≠ ';' → (∀ s ∈ parts, c ∉ s) → c ∉ joined [.char ';'] parts := by
    intro c hc hno hmem
    rcases mem_joined hmem with h | ⟨s, hs, hcs⟩
    · exact hc h
    · exact hno s hs hcs
  obtain ⟨c, hc, hblank⟩ := hvalue.notBlank
  have hblanks : ∀ c ∈ [CodePoint.char ' '], isBlank c = true := by decide
  have hnothing : ∀ c ∈ ([] : Text), isBlank c = true := by decide
  have htrim : trim (value ++ [.char ' ']) = trim value := by
    simpa using trim_around (s := value) hnothing hblanks
  have htext : tagText value parts = value ++ [.char ' '] ++ .char '@' ::
      ([.char ' '] ++ (.char '(' :: (joined [.char ';'] parts ++ [.char ')'])) ++ []) := by
    simp [tagText, Text.ofString]
  rw [htext, ← htrim]
  exact splitValue_enclosed ⟨c, List.mem_append_left _ hc, hblank⟩
    (by simpa using hvalue.noAt) hblanks hnothing
    (hnone _ (by decide) fun s hs => (hparts s hs).noOpening)
    (hnone _ (by decide) fun s hs => (hparts s hs).noClosing)

/-- Joined conditions are read as they stand. -/
theorem read_eq_clauses (hvalue : IsValue value) (hne : parts ≠ [])
    (hparts : ∀ s ∈ parts, IsPart s) :
    (Restriction.read key (some (tagText value parts)) : Except Fault (Restriction α)) =
      (clauses key (joined [.char ';'] parts) [] parts).map
        (assemble key (trim value) (tagText value parts)) := by
  rw [read_of_splitValue (splitValue_tagText hvalue hparts),
    splitAt_joined hne fun s hs => (hparts s hs).noSemicolon]
  rfl

/-- A condition that stands alone. -/
theorem readAlone_eq {s : Text} (hvalue : IsValue value) (hs : IsPart s) :
    (readAlone key value s : Except Fault (Restriction α)) =
      (readPart key s s).map fun c => assemble key (trim value) (tagText value [s]) [c] := by
  rw [readAlone, read_eq_clauses hvalue (List.cons_ne_nil _ _) (by simpa using hs),
    show joined [.char ';'] [s] = s by simp [joined, List.intercalate]]
  cases hpart : (readPart key s s : Except Fault (Clause α)) with
  | error f =>
      rw [clauses_cons_of_error hpart]
      rfl
  | ok c =>
      rw [clauses_cons_of_ok hpart fun _ _ => List.not_mem_nil]
      rfl

/-- Whether a condition can be read does not depend on the others. -/
theorem readPart_eq_ok_congr {inner inner' s : Text} {c : Clause α} :
    readPart key inner s = .ok c ↔ readPart key inner' s = .ok c :=
  readPart_eq_ok_iff.trans readPart_eq_ok_iff.symm

/-- A condition among others is bad for the same reason as alone; only a blank one is shown with
the others. -/
theorem readPart_eq_error {inner s : Text} {f : Fault} (inner' : Text)
    (h : (readPart key inner s : Except Fault (Clause α)) = .error f) :
    ∃ g, (readPart key inner' s : Except Fault (Clause α)) = .error g ∧ f.SameClass g ∧
      (trim s ≠ [] → f = g) := by
  unfold readPart at h ⊢
  by_cases hempty : (trim s).isEmpty = true
  · rw [if_pos hempty] at h ⊢
    cases h
    exact ⟨_, rfl, rfl, fun hne => absurd (List.isEmpty_iff.mp hempty) hne⟩
  · rw [if_neg hempty] at h ⊢
    exact ⟨f, h, .refl f, fun _ => rfl⟩

/-! ## Acceptance -/

/-- A condition is accepted alone just when it can be read. -/
theorem readAlone_eq_ok_iff {s : Text} (hvalue : IsValue value) (hs : IsPart s) (inner : Text)
    {x : Restriction α} :
    readAlone key value s = .ok x ↔
      ∃ c, readPart key inner s = .ok c ∧
        assemble key (trim value) (tagText value [s]) [c] = x := by
  rw [readAlone_eq hvalue hs, map_eq_ok]
  exact exists_congr fun c => and_congr_left fun _ => readPart_eq_ok_congr

/-- **Acceptance.** -/
theorem read_isAccepted_iff (hvalue : IsValue value) (hne : parts ≠ [])
    (hparts : ∀ s ∈ parts, IsPart s) :
    (∃ r : Restriction α, Restriction.read key (some (tagText value parts)) = .ok r) ↔
      (∀ s ∈ parts, ∃ x : Restriction α, readAlone key value s = .ok x) ∧
        (parts.filterMap comparedAxis?).Nodup := by
  rw [read_eq_clauses hvalue hne hparts]
  constructor
  · rintro ⟨r, hr⟩
    obtain ⟨cs, hcs, -⟩ := map_eq_ok.mp hr
    obtain ⟨hread, hnodup, -⟩ := clauses_eq_ok_iff.mp hcs
    refine ⟨fun s hs => ?_, axesOf_eq hread ▸ hnodup⟩
    obtain ⟨c, -, hc⟩ := exists_of_forall₂ hread s hs
    exact ⟨_, (readAlone_eq_ok_iff hvalue (hparts s hs) _).mpr ⟨c, hc, rfl⟩⟩
  · rintro ⟨halone, hnodup⟩
    obtain ⟨cs, hcs⟩ := exists_forall₂ (R := fun s c =>
        readPart (α := α) key (joined [.char ';'] parts) s = .ok c) fun s hs => by
      obtain ⟨x, hx⟩ := halone s hs
      obtain ⟨c, hc, -⟩ := (readAlone_eq_ok_iff hvalue (hparts s hs) _).mp hx
      exact ⟨c, hc⟩
    exact ⟨_, map_eq_ok.mpr ⟨cs, clauses_eq_ok_iff.mpr
      ⟨hcs, axesOf_eq hcs ▸ hnodup, fun _ _ => List.not_mem_nil⟩, rfl⟩⟩

/-! ## What is accepted -/

/-- Whether a restriction has the windows and the bounds that a clause states, and no others. -/
structure States (c : Clause α) (x : Restriction α) : Prop where
  windows : x.windows = c.windowList
  weight : ∀ b, x.weight = some b ↔ c = .bound weightAxis b
  height : ∀ b, x.height = some b ↔ c = .bound heightAxis b

omit [Quantity α] in
theorem states_assemble (c : Clause α) (raw : Text) : States c (assemble key value raw [c]) := by
  have hbound : ∀ axis b, [c].findSome? (Clause.boundOn? axis) = some b ↔ c = .bound axis b := by
    intro axis b
    have hnodup : (axesOf [c]).Nodup := by
      unfold axesOf
      rw [List.filterMap_cons]
      cases c.axis? <;> simp
    rw [findSome?_boundOn?_iff hnodup, List.mem_singleton, eq_comm]
  exact ⟨by simp [assemble], hbound weightAxis, hbound heightAxis⟩

/-- Conditions that can be read state restrictions when they stand alone. -/
theorem exists_alone {inner : Text} {cs : List (Clause α)} (hvalue : IsValue value)
    (hparts : ∀ s ∈ parts, IsPart s)
    (h : List.Forall₂ (fun s c => readPart key inner s = .ok c) parts cs) :
    ∃ rs : List (Restriction α),
      List.Forall₂ (fun s x => readAlone key value s = .ok x) parts rs ∧
        List.Forall₂ States cs rs := by
  induction h with
  | nil => exact ⟨[], .nil, .nil⟩
  | @cons s c _ _ hc _ ih =>
      obtain ⟨hs, hrest⟩ := List.forall_mem_cons.mp hparts
      obtain ⟨rs, hread, hstates⟩ := ih hrest
      exact ⟨_ :: rs, .cons ((readAlone_eq_ok_iff hvalue hs inner).mpr ⟨c, hc, rfl⟩) hread,
        .cons (states_assemble c _) hstates⟩

/-- **What joined conditions state** when each of them states a restriction: all windows in their
order, and the bounds of the conditions that have one. -/
structure StatesAll (key value : Text) (parts : List Text) (r : Restriction α) : Prop where
  key_eq : r.key = key
  value_eq : r.value = trim value
  raw_eq : r.raw = tagText value parts
  conditions : ∃ rs : List (Restriction α),
    List.Forall₂ (fun s x => readAlone key value s = .ok x) parts rs ∧
      r.windows = rs.flatMap Restriction.windows ∧
        (∀ b, r.weight = some b ↔ ∃ x ∈ rs, x.weight = some b) ∧
          ∀ b, r.height = some b ↔ ∃ x ∈ rs, x.height = some b

theorem statesAll_of_read {r : Restriction α} (hvalue : IsValue value) (hne : parts ≠ [])
    (hparts : ∀ s ∈ parts, IsPart s)
    (h : Restriction.read key (some (tagText value parts)) = .ok r) :
    StatesAll key value parts r := by
  rw [read_eq_clauses hvalue hne hparts] at h
  obtain ⟨cs, hcs, rfl⟩ := map_eq_ok.mp h
  obtain ⟨hread, hnodup, -⟩ := clauses_eq_ok_iff.mp hcs
  obtain ⟨rs, halone, hstates⟩ := exists_alone hvalue hparts hread
  -- A bound is stated by the clause itself and by the restriction that the clause states.
  have hclause : ∀ c ∈ cs, ∃ x ∈ rs, States c x := exists_of_forall₂ hstates
  have hsingle : ∀ x ∈ rs, ∃ c ∈ cs, States c x := exists_of_forall₂ hstates.flip
  refine ⟨rfl, rfl, rfl, rs, halone,
    flatMap_of_forall₂ hstates fun _ _ hstated => hstated.windows.symm, fun b => ?_, fun b => ?_⟩
  · refine (findSome?_boundOn?_iff hnodup).trans ⟨fun hmem => ?_, fun ⟨x, hx, hb⟩ => ?_⟩
    · obtain ⟨x, hx, hstated⟩ := hclause _ hmem
      exact ⟨x, hx, (hstated.weight b).mpr rfl⟩
    · obtain ⟨c, hc, hstated⟩ := hsingle x hx
      exact (hstated.weight b).mp hb ▸ hc
  · refine (findSome?_boundOn?_iff hnodup).trans ⟨fun hmem => ?_, fun ⟨x, hx, hb⟩ => ?_⟩
    · obtain ⟨x, hx, hstated⟩ := hclause _ hmem
      exact ⟨x, hx, (hstated.height b).mpr rfl⟩
    · obtain ⟨c, hc, hstated⟩ := hsingle x hx
      exact (hstated.height b).mp hb ▸ hc

/-! ## What is refused -/

/-- **Where joined conditions are refused**: at a condition that is refused alone, for the same
reason, or at one that bounds an axis again. The conditions before it are fine. -/
structure RefusedAt (α : Type) [Quantity α] (key value : Text) (before : List Text) (s : Text)
    (f : Fault) : Prop where
  accepted : ∀ b ∈ before, ∃ x : Restriction α, readAlone key value b = .ok x
  nodup : (before.filterMap comparedAxis?).Nodup
  reason : (∃ g, (readAlone key value s : Except Fault (Restriction α)) = .error g ∧
      f.SameClass g ∧ (trim s ≠ [] → f = g)) ∨
    (∃ x : Restriction α, readAlone key value s = .ok x) ∧
      ∃ axis, comparedAxis? s = some axis ∧ axis ∈ before.filterMap comparedAxis? ∧
        f = .refused key (.duplicateComparison axis (trim s))

theorem exists_refusedAt {f : Fault} (hvalue : IsValue value) (hne : parts ≠ [])
    (hparts : ∀ s ∈ parts, IsPart s)
    (h : (Restriction.read key (some (tagText value parts)) : Except Fault (Restriction α)) =
      .error f) :
    ∃ before s after, parts = before ++ s :: after ∧ RefusedAt α key value before s f := by
  rw [read_eq_clauses hvalue hne hparts, map_eq_error] at h
  obtain ⟨before, s, after, cs, rfl, hbefore, hbad⟩ := clauses_eq_error_iff.mp h
  obtain ⟨hread, hnodup, -⟩ := clauses_eq_ok_iff.mp hbefore
  have hs : IsPart s := hparts s (by simp)
  refine ⟨before, s, after, rfl, fun b hb => ?_, axesOf_eq hread ▸ hnodup, ?_⟩
  · obtain ⟨c, -, hc⟩ := exists_of_forall₂ hread b hb
    exact ⟨_, (readAlone_eq_ok_iff hvalue (hparts b (by simp [hb])) _).mpr ⟨c, hc, rfl⟩⟩
  · rcases hbad with hbad | ⟨c, axis, hc, haxis, hmem, rfl⟩
    · obtain ⟨g, hg, hclass, hsame⟩ := readPart_eq_error s hbad
      refine Or.inl ⟨g, ?_, hclass, hsame⟩
      rw [readAlone_eq hvalue hs, hg]
      rfl
    · refine Or.inr ⟨⟨_, (readAlone_eq_ok_iff hvalue hs _).mpr ⟨c, hc, rfl⟩⟩, axis, ?_, ?_, rfl⟩
      · rw [← axis?_of_readPart hc, haxis]
      · rw [← axesOf_eq hread]
        simpa using hmem

/-! ## The order of conditions -/

omit [Quantity α] in
/-- Whether a restriction is in force depends on which windows it has and not on their order. -/
theorem isActiveAt_congr {r r' : Restriction α} (h : ∀ w, w ∈ r.windows ↔ w ∈ r'.windows)
    (t : Calendar.LocalTime) : r.isActiveAt t = r'.isActiveAt t := by
  have hempty : r.windows = [] ↔ r'.windows = [] := by
    simp only [List.eq_nil_iff_forall_not_mem, h]
  rw [Bool.eq_iff_iff]
  simp only [Restriction.isActiveAt, Bool.or_eq_true, List.isEmpty_iff, List.any_eq_true, hempty, h]

/-- The windows and bounds of joined conditions are those that some condition states alone. -/
theorem StatesAll.mem_iff {r : Restriction α} (h : StatesAll key value parts r) :
    (∀ w, w ∈ r.windows ↔
      ∃ s ∈ parts, ∃ x : Restriction α, readAlone key value s = .ok x ∧ w ∈ x.windows) ∧
    (∀ b, r.weight = some b ↔
      ∃ s ∈ parts, ∃ x : Restriction α, readAlone key value s = .ok x ∧ x.weight = some b) ∧
    ∀ b, r.height = some b ↔
      ∃ s ∈ parts, ∃ x : Restriction α, readAlone key value s = .ok x ∧ x.height = some b := by
  obtain ⟨rs, halone, hwindows, hweight, hheight⟩ := h.conditions
  have hexists : ∀ p : Restriction α → Prop, (∃ x ∈ rs, p x) ↔
      ∃ s ∈ parts, ∃ x : Restriction α, readAlone key value s = .ok x ∧ p x := by
    intro p
    simp only [mem_iff_of_forall₂ halone]
    constructor
    · rintro ⟨x, ⟨s, hs, hx⟩, hp⟩
      exact ⟨s, hs, x, hx, hp⟩
    · rintro ⟨s, hs, x, hx, hp⟩
      exact ⟨x, ⟨s, hs, hx⟩, hp⟩
  refine ⟨fun w => ?_, fun b => (hweight b).trans (hexists _),
    fun b => (hheight b).trans (hexists _)⟩
  rw [hwindows, List.mem_flatMap]
  exact hexists _

/-- **The order of conditions does not matter** for acceptance, nor for when and for which vehicles
the restriction holds. -/
theorem read_perm {parts' : List Text} (hvalue : IsValue value) (hne : parts ≠ [])
    (hparts : ∀ s ∈ parts, IsPart s) (hperm : parts.Perm parts') :
    ((∃ r : Restriction α, Restriction.read key (some (tagText value parts)) = .ok r) ↔
      ∃ r : Restriction α, Restriction.read key (some (tagText value parts')) = .ok r) ∧
    ∀ r r' : Restriction α, Restriction.read key (some (tagText value parts)) = .ok r →
      Restriction.read key (some (tagText value parts')) = .ok r' →
        (∀ t, r.isActiveAt t = r'.isActiveAt t) ∧
          ∀ weight height, r.appliesTo weight height = r'.appliesTo weight height := by
  have hne' : parts' ≠ [] := fun hnil => hne (List.perm_nil.mp (hnil ▸ hperm))
  have hparts' : ∀ s ∈ parts', IsPart s := fun s hs => hparts s (hperm.mem_iff.mpr hs)
  constructor
  · rw [read_isAccepted_iff hvalue hne hparts, read_isAccepted_iff hvalue hne' hparts',
      (hperm.filterMap _).nodup_iff]
    simp only [hperm.mem_iff]
  · intro r r' hr hr'
    obtain ⟨hwindows, hweight, hheight⟩ := (statesAll_of_read hvalue hne hparts hr).mem_iff
    obtain ⟨hwindows', hweight', hheight'⟩ := (statesAll_of_read hvalue hne' hparts' hr').mem_iff
    have hsame : r.weight = r'.weight ∧ r.height = r'.height := by
      constructor
      · ext b
        rw [hweight, hweight']
        simp only [hperm.mem_iff]
      · ext b
        rw [hheight, hheight']
        simp only [hperm.mem_iff]
    refine ⟨isActiveAt_congr fun w => ?_, fun weight height => ?_⟩
    · rw [hwindows, hwindows']
      simp only [hperm.mem_iff]
    · unfold Restriction.appliesTo
      rw [hsame.1, hsame.2]

end Joined

end Condition

/-- **Joined conditions are read one by one.** A tag with several conditions is accepted just when
each condition is accepted alone and no two compare on one axis; what it states is what they state
together. If it is refused, then at the first condition that is refused alone, with a fault of the
same class, or at the first that compares on an axis again. The order of the conditions does not
matter for acceptance, nor for when and for which vehicles the restriction holds. -/
theorem Restriction.read_tagText {α : Type} [Quantity α] (key : Text) {value : Text}
    {parts : List Text} (hvalue : IsValue value) (hne : parts ≠ [])
    (hparts : ∀ s ∈ parts, IsPart s) :
    ((∃ r : Restriction α, Restriction.read key (some (tagText value parts)) = .ok r) ↔
      (∀ s ∈ parts, ∃ x : Restriction α, readAlone key value s = .ok x) ∧
        (parts.filterMap comparedAxis?).Nodup) ∧
    (∀ r : Restriction α, Restriction.read key (some (tagText value parts)) = .ok r →
      StatesAll key value parts r) ∧
    (∀ f, (Restriction.read key (some (tagText value parts)) : Except Fault (Restriction α)) =
        .error f →
      ∃ before s after, parts = before ++ s :: after ∧ RefusedAt α key value before s f) ∧
    ∀ parts' : List Text, parts.Perm parts' →
      ((∃ r : Restriction α, Restriction.read key (some (tagText value parts)) = .ok r) ↔
        ∃ r : Restriction α, Restriction.read key (some (tagText value parts')) = .ok r) ∧
      ∀ r r' : Restriction α, Restriction.read key (some (tagText value parts)) = .ok r →
        Restriction.read key (some (tagText value parts')) = .ok r' →
          (∀ t, r.isActiveAt t = r'.isActiveAt t) ∧
            ∀ weight height, r.appliesTo weight height = r'.appliesTo weight height :=
  ⟨read_isAccepted_iff hvalue hne hparts, fun _ => statesAll_of_read hvalue hne hparts,
    fun _ => exists_refusedAt hvalue hne hparts, fun _ => read_perm hvalue hne hparts⟩

/-- Hours, a weight and a height. -/
def Condition.mixedParts : List Text := ["Mo-Fr 07:00-09:00", " weight>7.5 t", "height<=3"]

theorem Restriction.read_tagText_mixedParts :
    IsValue "no" ∧ mixedParts ≠ [] ∧ (∀ s ∈ mixedParts, IsPart s) ∧
      ∃ r : Restriction ℚ,
        Restriction.read "hgv:conditional" (some (tagText "no" mixedParts)) = .ok r ∧
          StatesAll "hgv:conditional" "no" mixedParts r := by
  have hvalue : IsValue "no" := by decide
  have hne : mixedParts ≠ [] := List.cons_ne_nil _ _
  have hparts : ∀ s ∈ mixedParts, IsPart s := by decide
  have hread : (Restriction.read "hgv:conditional" (some (tagText "no" mixedParts)) :
      Except Fault (Restriction ℚ)).isOk = true := by decide +kernel
  obtain ⟨r, hr⟩ := exists_eq_ok hread
  exact ⟨hvalue, hne, hparts, r, hr,
    (Restriction.read_tagText "hgv:conditional" hvalue hne hparts).2.1 r hr⟩

end RoadRules
