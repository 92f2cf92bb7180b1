import RoadRules.Condition.Item
import RoadRules.Proofs.Condition.Tokens
import RoadRules.Proofs.Results

set_option autoImplicit false

/-! # What the items of a list of tokens are

`Grouped` says without an algorithm which items a list of tokens forms: a time or word that no dash
follows, or two of them with a dash between them. Commas may stand anywhere between items; nothing
is said here about how many there are. -/

namespace RoadRules.Condition

open Text Calendar

/-- **Which items a list of tokens forms.** -/
inductive Grouped : List Token → List Item → Prop
  | nil : Grouped [] []
  -- A comma between items says nothing.
  | comma {ts : List Token} {its : List Item} : Grouped ts its → Grouped (.comma :: ts) its
  | single {a : Atom} {ts : List Token} {its : List Item} :
      ts.head? ≠ some .dash → Grouped ts its → Grouped (.atom a :: ts) (.single a :: its)
  -- Two times or words with a dash between them.
  | range {a b : Atom} {ts : List Token} {its : List Item} :
      Grouped ts its → Grouped (.atom a :: .dash :: .atom b :: ts) (.range a b :: its)

section Grouping

variable {segment : Text} {ts : List Token} {its : List Item}

theorem items_single (a : Atom) (h : ts.head? ≠ some .dash) :
    items segment (.atom a :: ts) = (items segment ts).map (.single a :: ·) := by
  cases ts with
  | nil => rfl
  | cons t rest =>
      cases t with
      | dash => exact absurd rfl h
      | atom b => rfl
      | comma => rfl

theorem Grouped.items_eq (h : Grouped ts its) : items segment ts = .ok its := by
  induction h with
  | nil => rfl
  | comma _ ih => exact ih
  | single hdash _ ih =>
      rw [items_single _ hdash, ih]
      rfl
  | range _ ih =>
      rw [items, ih]
      rfl

/-- **The items of a list of tokens** are those that it forms. -/
theorem items_eq_ok_iff : items segment ts = .ok its ↔ Grouped ts its := by
  refine ⟨fun h => ?_, Grouped.items_eq⟩
  induction ts using items.induct generalizing its with
  | case1 =>
      cases h
      exact .nil
  | case2 rest ih => exact .comma (ih h)
  | case3 rest => cases h
  | case4 a b rest ih =>
      obtain ⟨others, hothers, rfl⟩ := map_eq_ok.mp h
      exact .range (ih hothers)
  | case5 a rest hno =>
      rw [items] at h
      · cases h
      · exact hno
  | case6 a rest hno hno' ih =>
      have hdash : rest.head? ≠ some .dash := by
        intro hhead
        cases rest with
        | nil => cases hhead
        | cons t rest =>
            cases hhead
            exact hno' rest rfl
      rw [items_single a hdash] at h
      obtain ⟨others, hothers, rfl⟩ := map_eq_ok.mp h
      exact .single hdash (ih hothers)

end Grouping

/-! ## Names -/

theorem weekday?_name (d : Weekday) : weekday? (NamedCycle.name d) = some d :=
  NamedCycle.ofName?_name d

theorem month?_name (m : Month) : month? (NamedCycle.name m) = some m :=
  NamedCycle.ofName?_name m

theorem weekday?_month (m : Month) : weekday? (NamedCycle.name m) = none := by
  cases m <;> decide

/-! ## Windows -/

namespace Piece

def holdsDay (d : Weekday) : Piece → Bool
  | days s => s.selects d
  | months _ | hours _ => false

def holdsMonth (m : Month) : Piece → Bool
  | months s => s.selects m
  | days _ | hours _ => false

end Piece

/-- The days of several pieces are those that some piece names. -/
theorem selects_daysOf (ps : List Piece) (d : Weekday) :
    (daysOf ps).selects d = ps.any (Piece.holdsDay d) := by
  -- From the last piece on, since the days are collected from the first on.
  induction ps using List.reverseRecOn with
  | nil => rfl
  | append_singleton ps p ih =>
      rw [List.any_append, ← ih]
      unfold daysOf
      rw [List.foldl_append]
      cases p <;> simp [Piece.holdsDay, Selection.union]

/-- The months of several pieces are those that some piece names. -/
theorem selects_monthsOf (ps : List Piece) (m : Month) :
    (monthsOf ps).selects m = ps.any (Piece.holdsMonth m) := by
  induction ps using List.reverseRecOn with
  | nil => rfl
  | append_singleton ps p ih =>
      rw [List.any_append, ← ih]
      unfold monthsOf
      rw [List.foldl_append]
      cases p <;> simp [Piece.holdsMonth, Selection.union]

/-- **The windows of a condition** are those of the pieces that the items of its tokens name, if
there is an item and each of them names something. -/
theorem windows_eq_ok_iff {segment : Text} {ws : List TimeWindow} :
    windows segment = .ok ws ↔
      ∃ ts its ps, Spells segment ts ∧ Grouped ts its ∧ its ≠ [] ∧
        its.mapM Item.piece = .ok ps ∧ windowsOf ps = ws := by
  constructor
  · intro h
    unfold windows at h
    obtain ⟨ts, hts, hread⟩ := bind_eq_ok.mp h
    obtain ⟨its, hits, hlisted⟩ := bind_eq_ok.mp hread
    split at hlisted
    · cases hlisted
    · rename_i hne
      obtain ⟨ps, hps, hwindows⟩ := bind_eq_ok.mp hlisted
      cases hwindows
      exact ⟨ts, its, ps, tokens_eq_ok_iff.mp hts, items_eq_ok_iff.mp hits, by simpa using hne,
        hps, rfl⟩
  · rintro ⟨ts, its, ps, hspells, hgrouped, hne, hps, rfl⟩
    have hempty : its.isEmpty = false := by simpa using hne
    unfold windows
    rw [hspells.tokens_eq]
    change (items segment ts >>= _) = _
    rw [hgrouped.items_eq]
    change (if its.isEmpty = true then _ else _) = _
    rw [hempty, hps]
    rfl

end RoadRules.Condition
