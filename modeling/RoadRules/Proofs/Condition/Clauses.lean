import RoadRules.Condition.Reader
import RoadRules.Proofs.Condition.Items

set_option autoImplicit false

/-! # How a list of conditions is read

The conditions between semicolons are read one by one. A condition must not be blank, and must not
bound a dimension that an earlier one has bounded. So conditions are read together just when each
of them is read and no axis comes twice (`clauses_eq_ok_iff`), and they fail where the first of them
fails or repeats an axis (`clauses_eq_error_iff`). -/

namespace RoadRules.Condition

open Text

variable {α : Type} [Quantity α] {key inner part : Text} {seen rest : List Text}

/-- **The first of several conditions** is read alone, and the others with its dimension added to
those that are bounded. -/
theorem clauses_cons_eq_ok_iff {cs : List (Clause α)} :
    clauses key inner seen (part :: rest) = .ok cs ↔
      ∃ c others, trim part ≠ [] ∧ clause key (trim part) = .ok c ∧
        (∀ axis, c.axis? = some axis → axis ∉ seen) ∧
          clauses key inner (c.axis?.toList ++ seen) rest = .ok others ∧ c :: others = cs := by
  constructor
  · intro h
    change (if _ then _ else _ >>= _) = _ at h
    split at h
    · cases h
    · rename_i hne
      obtain ⟨c, hc, hothers⟩ := bind_eq_ok.mp h
      refine ⟨c, ?_⟩
      cases haxis : c.axis? with
      | none =>
          rw [haxis] at hothers
          obtain ⟨others, hrest, heq⟩ := bind_eq_ok.mp hothers
          cases heq
          exact ⟨others, by simpa using hne, hc, nofun, hrest, rfl⟩
      | some axis =>
          rw [haxis] at hothers
          change (if _ then _ else _ >>= _) = _ at hothers
          split at hothers
          · cases hothers
          · rename_i hseen
            obtain ⟨others, hrest, heq⟩ := bind_eq_ok.mp hothers
            cases heq
            refine ⟨others, by simpa using hne, hc, ?_, hrest, rfl⟩
            rintro _ ⟨⟩
            exact hseen
  · rintro ⟨c, others, hne, hc, hseen, hothers, rfl⟩
    have hempty : ¬ (trim part).isEmpty = true := by simpa using hne
    change (if _ then _ else _ >>= _) = _
    rw [if_neg hempty, hc, ok_bind]
    cases haxis : c.axis? with
    | none =>
        rw [haxis] at hothers
        exact bind_eq_ok.mpr ⟨others, hothers, rfl⟩
    | some axis =>
        rw [haxis] at hothers
        change (if _ then _ else _ >>= _) = _
        rw [if_neg (hseen axis haxis)]
        exact bind_eq_ok.mpr ⟨others, hothers, rfl⟩

/-! ## Conditions one by one -/

/-- What one of several conditions says, with the white space around it. `inner` is the whole text
between the parentheses, which is shown if the condition is blank. -/
def readPart (key inner part : Text) : Except Fault (Clause α) :=
  if (trim part).isEmpty then .error (.refused key (.emptySegment inner))
  else clause key (trim part)

/-- The axis on which a condition is a comparison, with the white space around the condition. -/
def comparedAxis? (part : Text) : Option Text := (axis? (trim part)).map Prod.fst

/-- The axes that clauses bound. -/
def axesOf (cs : List (Clause α)) : List Text := cs.filterMap Clause.axis?

variable {c : Clause α} {cs : List (Clause α)} {f : Fault}

/-- **What a condition that is read says**: its windows, or its bound if it is a comparison. -/
theorem clause_cases {s : Text} (h : clause key s = .ok c) :
    (Condition.axis? s = none ∧ ∃ ws, windows s = .ok ws ∧ c = .windows ws) ∨
      ∃ axis rest b, Condition.axis? s = some (axis, rest) ∧
        bound? key s = .ok (some (axis, b)) ∧ c = .bound axis b := by
  unfold clause at h
  obtain ⟨bound, hbound, hclause⟩ := bind_eq_ok.mp h
  cases haxis : Condition.axis? s with
  | none =>
      have hnone : bound = none := by
        rw [bound?_of_axis?_eq_none haxis] at hbound
        cases hbound
        rfl
      subst hnone
      obtain ⟨ws, hws, rfl⟩ := map_eq_ok.mp hclause
      exact Or.inl ⟨rfl, ws, mapError_eq_ok.mp hws, rfl⟩
  | some p =>
      obtain ⟨b, rfl⟩ : ∃ b, bound = some (p.1, b) := by
        rw [bound?_of_axis?_eq_some haxis] at hbound
        obtain ⟨b, -, rfl⟩ := map_eq_ok.mp hbound
        exact ⟨b, rfl⟩
      cases hclause
      exact Or.inr ⟨p.1, p.2, b, rfl, hbound, rfl⟩

/-- A condition bounds the axis on which it is a comparison. -/
theorem clause_axis? {s : Text} (h : clause key s = .ok c) :
    c.axis? = (Condition.axis? s).map Prod.fst := by
  rcases clause_cases h with ⟨haxis, ws, -, rfl⟩ | ⟨axis, rest, b, haxis, -, rfl⟩
  · rw [haxis]
    rfl
  · rw [haxis]
    rfl

theorem readPart_eq_ok_iff :
    readPart key inner part = .ok c ↔ trim part ≠ [] ∧ clause key (trim part) = .ok c := by
  unfold readPart
  by_cases hempty : (trim part).isEmpty = true
  · rw [if_pos hempty]
    exact ⟨nofun, fun h => absurd (List.isEmpty_iff.mp hempty) h.1⟩
  · rw [if_neg hempty]
    exact (and_iff_right (by simpa using hempty)).symm

theorem axis?_of_readPart (h : readPart key inner part = .ok c) :
    c.axis? = comparedAxis? part :=
  clause_axis? (readPart_eq_ok_iff.mp h).2

/-- Which axes the clauses bound can be told from the conditions. -/
theorem axesOf_eq {parts : List Text}
    (h : List.Forall₂ (fun part c => readPart key inner part = .ok c) parts cs) :
    axesOf cs = parts.filterMap comparedAxis? :=
  (filterMap_of_forall₂ h fun _ _ hc => (axis?_of_readPart hc).symm).symm

omit [Quantity α] in
theorem reverse_axesOf_cons :
    (axesOf (c :: cs)).reverse ++ seen = (axesOf cs).reverse ++ (c.axis?.toList ++ seen) := by
  unfold axesOf
  rw [List.filterMap_cons]
  cases c.axis? with
  | none => rfl
  | some axis => simp

/-! ### The bound on an axis -/

omit [Quantity α] in
theorem eq_bound_of_boundOn? {axis : Text} {c : Comparison α} {d : Clause α}
    (h : d.boundOn? axis = some c) : d = .bound axis c := by
  cases d with
  | windows ws => cases h
  | bound a b =>
      by_cases haxis : a = axis
      · rw [Clause.boundOn?, if_pos haxis] at h
        rw [haxis, Option.some.inj h]
      · rw [Clause.boundOn?, if_neg haxis] at h
        cases h

omit [Quantity α] in
/-- Of clauses that bound no axis twice, the only one on an axis gives the bound on it. -/
theorem findSome?_boundOn?_iff {cs : List (Clause α)} (hnodup : (axesOf cs).Nodup) {axis : Text}
    {c : Comparison α} :
    cs.findSome? (Clause.boundOn? axis) = some c ↔ .bound axis c ∈ cs := by
  induction cs with
  | nil => simp
  | cons d rest ih =>
      have hrest : (axesOf rest).Nodup :=
        hnodup.sublist ((List.sublist_cons_self d rest).filterMap _)
      rw [List.findSome?_cons, List.mem_cons]
      cases hd : d.boundOn? axis with
      | none =>
          have hne : .bound axis c ≠ d := by
            rintro rfl
            simp [Clause.boundOn?] at hd
          simpa [hne] using ih hrest
      | some b =>
          cases eq_bound_of_boundOn? hd
          -- No other clause is on the axis.
          have hno : ∀ b', .bound axis b' ∉ rest := fun b' hmem =>
            (List.nodup_cons.mp (show (axis :: axesOf rest).Nodup from hnodup)).1
              (List.mem_filterMap.mpr ⟨_, hmem, rfl⟩)
          simp [hno c, eq_comm]

/-! ### The first condition -/

theorem clauses_cons_of_error (h : (readPart key inner part : Except Fault (Clause α)) = .error f) :
    (clauses key inner seen (part :: rest) : Except Fault (List (Clause α))) = .error f := by
  unfold readPart at h
  change (if _ then _ else _ >>= _) = _
  split at h
  · rename_i hempty
    rw [if_pos hempty]
    cases h
    rfl
  · rename_i hempty
    rw [if_neg hempty, h]
    rfl

theorem clauses_cons_of_seen {axis : Text} (h : readPart key inner part = .ok c)
    (haxis : c.axis? = some axis) (hseen : axis ∈ seen) :
    (clauses key inner seen (part :: rest) : Except Fault (List (Clause α))) =
      .error (.refused key (.duplicateComparison axis (trim part))) := by
  obtain ⟨hne, hc⟩ := readPart_eq_ok_iff.mp h
  have hempty : ¬ (trim part).isEmpty = true := by simpa using hne
  change (if _ then _ else _ >>= _) = _
  rw [if_neg hempty, hc, ok_bind, haxis]
  exact if_pos hseen

theorem clauses_cons_of_ok (h : readPart key inner part = .ok c)
    (hseen : ∀ axis, c.axis? = some axis → axis ∉ seen) :
    clauses key inner seen (part :: rest) =
      (clauses key inner (c.axis?.toList ++ seen) rest).map (c :: ·) := by
  obtain ⟨hne, hc⟩ := readPart_eq_ok_iff.mp h
  have hempty : ¬ (trim part).isEmpty = true := by simpa using hne
  change (if _ then _ else _ >>= _) = _
  rw [if_neg hempty, hc, ok_bind]
  cases haxis : c.axis? with
  | none =>
      show (clauses key inner seen rest >>= _) = Except.map _ (clauses key inner seen rest)
      cases (clauses key inner seen rest : Except Fault (List (Clause α))) <;> rfl
  | some axis =>
      show (if axis ∈ seen then _ else _ >>= _) =
        Except.map _ (clauses key inner (axis :: seen) rest)
      rw [if_neg (hseen axis haxis)]
      cases (clauses key inner (axis :: seen) rest : Except Fault (List (Clause α))) <;> rfl

/-! ### All conditions -/

omit [Quantity α] in
/-- No axis comes twice in clauses just when the first bounds none that is bounded before, and none
comes twice in the others with its own added. -/
theorem fresh_cons_iff :
    ((axesOf (c :: cs)).Nodup ∧ ∀ axis ∈ axesOf (c :: cs), axis ∉ seen) ↔
      (∀ axis, c.axis? = some axis → axis ∉ seen) ∧
        (axesOf cs).Nodup ∧ ∀ axis ∈ axesOf cs, axis ∉ c.axis?.toList ++ seen := by
  have hcons : axesOf (c :: cs) = c.axis?.toList ++ axesOf cs := by
    unfold axesOf
    rw [List.filterMap_cons]
    cases c.axis? <;> rfl
  rw [hcons]
  cases c.axis? with
  | none => simp
  | some axis =>
      simp only [Option.toList_some, List.singleton_append, List.nodup_cons, Option.some.injEq,
        forall_eq', List.mem_cons, not_or, forall_eq_or_imp]
      constructor
      · rintro ⟨⟨hfirst, hnodup⟩, hseen, hnew⟩
        exact ⟨hseen, hnodup, fun a ha => ⟨fun heq => hfirst (heq ▸ ha), hnew a ha⟩⟩
      · rintro ⟨hseen, hnodup, hnew⟩
        exact ⟨⟨fun hmem => (hnew axis hmem).1 rfl, hnodup⟩, hseen, fun a ha => (hnew a ha).2⟩

/-- **Conditions are read together** just when each of them is read and no axis comes twice. -/
theorem clauses_eq_ok_iff {parts : List Text} :
    clauses key inner seen parts = .ok cs ↔
      List.Forall₂ (fun part c => readPart key inner part = .ok c) parts cs ∧
        (axesOf cs).Nodup ∧ ∀ axis ∈ axesOf cs, axis ∉ seen := by
  induction parts generalizing seen cs with
  | nil =>
      rw [List.forall₂_nil_left_iff]
      constructor
      · intro h
        cases h
        exact ⟨rfl, by simp [axesOf]⟩
      · rintro ⟨rfl, -⟩
        rfl
  | cons part rest ih =>
      rw [clauses_cons_eq_ok_iff, List.forall₂_cons_left_iff]
      simp only [ih, readPart_eq_ok_iff]
      constructor
      · rintro ⟨c, others, hne, hc, hseen, ⟨hothers, hfresh⟩, rfl⟩
        exact ⟨⟨c, others, ⟨hne, hc⟩, hothers, rfl⟩, fresh_cons_iff.mpr ⟨hseen, hfresh⟩⟩
      · rintro ⟨⟨c, others, ⟨hne, hc⟩, hothers, rfl⟩, hfresh⟩
        obtain ⟨hseen, hfresh⟩ := fresh_cons_iff.mp hfresh
        exact ⟨c, others, hne, hc, hseen, ⟨hothers, hfresh⟩, rfl⟩

/-- Conditions after others that are read are read with the axes of those added. -/
theorem clauses_append {before : List Text} (h : clauses key inner seen before = .ok cs) :
    clauses key inner seen (before ++ rest) =
      (clauses key inner ((axesOf cs).reverse ++ seen) rest).map (cs ++ ·) := by
  induction before generalizing seen cs with
  | nil =>
      cases h
      show clauses key inner seen rest = Except.map _ (clauses key inner seen rest)
      cases (clauses key inner seen rest : Except Fault (List (Clause α))) <;> rfl
  | cons part before ih =>
      obtain ⟨c, others, hne, hc, hseen, hothers, rfl⟩ := clauses_cons_eq_ok_iff.mp h
      have hread : readPart key inner part = .ok c := readPart_eq_ok_iff.mpr ⟨hne, hc⟩
      rw [List.cons_append, clauses_cons_of_ok hread hseen, ih hothers, reverse_axesOf_cons]
      cases (clauses key inner ((axesOf others).reverse ++ (c.axis?.toList ++ seen)) rest :
        Except Fault (List (Clause α))) <;> rfl

/-- A fault among conditions comes from the first that is not read or repeats an axis. -/
theorem exists_of_clauses_eq_error {parts : List Text}
    (h : (clauses key inner seen parts : Except Fault (List (Clause α))) = .error f) :
    ∃ before part after, ∃ cs : List (Clause α), parts = before ++ part :: after ∧
      clauses key inner seen before = .ok cs ∧
        ((readPart key inner part : Except Fault (Clause α)) = .error f ∨
          ∃ (c : Clause α) (axis : Text), readPart key inner part = .ok c ∧
            c.axis? = some axis ∧ axis ∈ (axesOf cs).reverse ++ seen ∧
              f = .refused key (.duplicateComparison axis (trim part))) := by
  induction parts generalizing seen with
  | nil => cases h
  | cons part rest ih =>
      cases hpart : (readPart key inner part : Except Fault (Clause α)) with
      | error g =>
          rw [clauses_cons_of_error hpart] at h
          cases h
          exact ⟨[], part, rest, [], rfl, rfl, Or.inl hpart⟩
      | ok c =>
          by_cases hseen : ∀ axis, c.axis? = some axis → axis ∉ seen
          · -- The condition is fine, so the fault is among the others.
            rw [clauses_cons_of_ok hpart hseen] at h
            obtain ⟨before, bad, after, cs, rfl, hbefore, hbad⟩ := ih (map_eq_error.mp h)
            refine ⟨part :: before, bad, after, c :: cs, rfl, ?_, ?_⟩
            · rw [clauses_cons_of_ok hpart hseen, hbefore]
              rfl
            · rwa [reverse_axesOf_cons]
          · push Not at hseen
            obtain ⟨axis, haxis, hmem⟩ := hseen
            rw [clauses_cons_of_seen hpart haxis hmem] at h
            cases h
            exact ⟨[], part, rest, [], rfl, rfl, Or.inr ⟨c, axis, hpart, haxis, hmem, rfl⟩⟩

/-- **Conditions are not read together** just when one of them is not read or repeats an axis, and
the conditions before it are read. The first such condition gives the fault. -/
theorem clauses_eq_error_iff {parts : List Text} :
    (clauses key inner seen parts : Except Fault (List (Clause α))) = .error f ↔
      ∃ before part after, ∃ cs : List (Clause α), parts = before ++ part :: after ∧
        clauses key inner seen before = .ok cs ∧
          ((readPart key inner part : Except Fault (Clause α)) = .error f ∨
            ∃ (c : Clause α) (axis : Text), readPart key inner part = .ok c ∧
              c.axis? = some axis ∧ axis ∈ (axesOf cs).reverse ++ seen ∧
                f = .refused key (.duplicateComparison axis (trim part))) := by
  refine ⟨exists_of_clauses_eq_error, ?_⟩
  rintro ⟨before, part, after, cs, rfl, hbefore, hbad⟩
  rw [clauses_append hbefore]
  rcases hbad with hbad | ⟨c, axis, hc, haxis, hmem, rfl⟩
  · rw [clauses_cons_of_error hbad]
    rfl
  · rw [clauses_cons_of_seen hc haxis hmem]
    rfl

/-! ### The conditions of a tag -/

variable {value : Option Text} {text : Text}

/-- A tag is read by reading its conditions, -/
theorem read_of_splitValue (h : splitValue value = .ok (text, inner)) :
    (Restriction.read key value : Except Fault (Restriction α)) =
      (clauses key inner [] (splitAt (.char ';') inner)).map
        (assemble key text (value.getD [])) := by
  unfold Restriction.read
  rw [h]
  show (clauses key inner [] (splitAt (.char ';') inner) >>= fun cs => pure _) = _
  cases (clauses key inner [] (splitAt (.char ';') inner) : Except Fault (List (Clause α))) <;> rfl

/-- and it is refused if they cannot be told apart from its value. -/
theorem read_of_not_split {e : Refusal} (h : splitValue value = .error e) :
    (Restriction.read key value : Except Fault (Restriction α)) = .error (.refused key e) := by
  unfold Restriction.read
  rw [h]
  rfl

/-- If a tag is read, so are the conditions that its value is split into. -/
theorem exists_clauses_of_read {r : Restriction α} (h : Restriction.read key value = .ok r) :
    ∃ text inner cs, splitValue value = .ok (text, inner) ∧
      clauses key inner [] (splitAt (.char ';') inner) = .ok cs ∧
        assemble key text (value.getD []) cs = r := by
  obtain ⟨⟨text, inner⟩, hsplit, hrest⟩ := bind_eq_ok.mp h
  obtain ⟨cs, hcs, hr⟩ := bind_eq_ok.mp hrest
  exact ⟨text, inner, cs, mapError_eq_ok.mp hsplit, hcs, Except.ok.inj hr⟩

end RoadRules.Condition
