import RoadRules.Proofs.Condition.Clauses
import RoadRules.Proofs.Condition.Marks

set_option autoImplicit false

/-! # Why a condition is refused

A condition on days, months and hours can be refused at three stages: at a place where no token can
be read, for how its tokens follow one another, or for an item that names nothing
(`windows_eq_error`). A condition that begins with the name of a dimension is refused for what
follows the name (`boundAfter_eq_refused`), and no condition is refused otherwise
(`clause_eq_refused`). -/

namespace RoadRules.Condition

open Text Calendar

/-! ## Tokens -/

section Tokens

variable {s rest : Text} {c : CodePoint} {e : Refusal}

/-- What cannot be read at the start of a text is a run that does not begin with a time, or a
character that has no place in a condition. -/
theorem lexeme_eq_error (h : lexeme c rest = .error e) :
    (leadingTime? (c :: rest) = none ∧ e = .malformedTime (c :: rest.takeWhile continuesRun)) ∨
      e = .unexpectedCharacter (c :: rest) := by
  unfold lexeme at h
  split at h
  · split at h
    · cases h
    · rename_i hnone
      cases h
      exact Or.inl ⟨hnone, rfl⟩
  · -- Letters, dashes, commas and blanks are all read.
    repeat' split at h
    all_goals cases h
    exact Or.inr rfl

/-- A text that has no tokens has a place where nothing can be read. -/
theorem exists_of_tokens_eq_error (h : tokens s = .error e) :
    ∃ before c rest, s = before ++ c :: rest ∧ lexeme c rest = .error e := by
  -- On the length: what is read first may be of any length.
  induction hlen : s.length using Nat.strongRecOn generalizing s with
  | ind len ih =>
      cases s with
      | nil =>
          rw [tokens] at h
          cases h
      | cons c rest =>
          cases hlexeme : lexeme c rest with
          | error refusal =>
              rw [tokens, hlexeme] at h
              cases h
              exact ⟨[], c, rest, rfl, hlexeme⟩
          | ok read =>
              obtain ⟨token, n⟩ := read
              rw [tokens_cons hlexeme] at h
              have hshorter : (rest.drop n).length < len := by
                simp only [List.length_cons, List.length_drop] at hlen ⊢
                omega
              obtain ⟨before, d, after, hdrop, hd⟩ := ih _ hshorter (map_eq_error.mp h) rfl
              refine ⟨c :: (rest.take n ++ before), d, after, ?_, hd⟩
              rw [List.cons_append, List.append_assoc, ← hdrop, List.take_append_drop]

end Tokens

/-! ## Items -/

section Items

variable {segment : Text} {ts : List Token} {its : List Item} {it : Item} {e : Refusal}

/-- Tokens that form no items have a range without a start or without an end. -/
theorem items_eq_error (h : items segment ts = .error e) :
    e = .rangeWithoutStart segment ∨ e = .rangeWithoutEnd segment := by
  induction ts using items.induct with
  | case1 => cases h
  | case2 rest ih => exact ih h
  | case3 rest =>
      cases h
      exact Or.inl rfl
  | case4 a b rest ih => exact ih (map_eq_error.mp h)
  | case5 a rest hno =>
      rw [items] at h
      · cases h
        exact Or.inr rfl
      · exact hno
  | case6 a rest hno hno' ih =>
      rw [items] at h
      · exact ih (map_eq_error.mp h)
      · exact hno
      · exact hno'

/-- The tokens of an item stand together among the tokens that form it. -/
theorem Grouped.tokens_isInfix (h : Grouped ts its) (hit : it ∈ its) : it.tokens <:+: ts := by
  induction h with
  | nil => cases hit
  | comma _ ih => exact (ih hit).trans (List.infix_cons List.infix_rfl)
  | @single a ts its _ _ ih =>
      rcases List.mem_cons.mp hit with rfl | hit
      · exact (List.prefix_append [Token.atom a] ts).isInfix
      · exact (ih hit).trans (List.infix_cons List.infix_rfl)
  | @range a b ts its _ ih =>
      rcases List.mem_cons.mp hit with rfl | hit
      · exact (List.prefix_append [Token.atom a, .dash, .atom b] ts).isInfix
      · exact (ih hit).trans (List.suffix_append [Token.atom a, .dash, .atom b] ts).isInfix

end Items

/-! ## Pieces -/

section Pieces

variable {e : Refusal} {a b w t : Text}

theorem offending_unknown (w : Text) :
    (unknown w).offending = w ∧ (unknown w).code ≠ .invalidTime := by
  unfold unknown
  dsimp only
  split
  · exact ⟨rfl, nofun⟩
  · split
    · exact ⟨rfl, nofun⟩
    · exact ⟨rfl, nofun⟩

theorem timeOfDay_eq_error {endsRange : Bool} (h : timeOfDay endsRange t = .error e) :
    e = .timeOutOfRange t := by
  unfold timeOfDay at h
  dsimp only at h
  split at h
  · cases h
  · split at h
    · cases h
      rfl
    · cases h

theorem wordPiece_eq_error (h : wordPiece w = .error e) : e = unknown w := by
  unfold wordPiece at h
  split at h
  · cases h
  · cases h
  · cases h
    rfl

/-- A range between two words is refused for one of them, or as a whole. -/
theorem wordRangePiece_eq_error (h : wordRangePiece a b = .error e) :
    (∃ w, (w = a ∨ w = b) ∧ e.offending = w ∧ e.code ≠ .invalidTime) ∨
      e = .dayMixedWithMonth (dashed a b) := by
  unfold wordRangePiece at h
  split at h
  · cases h
  · cases h
  · cases h
    exact Or.inr rfl
  · cases h
    exact Or.inr rfl
  · cases h
    exact Or.inl ⟨b, Or.inr rfl, rfl, nofun⟩
  · cases h
    exact Or.inl ⟨a, Or.inl rfl, rfl, nofun⟩
  · cases h
    exact Or.inl ⟨b, Or.inr rfl, rfl, nofun⟩
  · cases h
    exact Or.inl ⟨a, Or.inl rfl, rfl, nofun⟩
  · cases h
    exact Or.inl ⟨a, Or.inl rfl, offending_unknown a⟩

/-- **An item that names nothing** is refused for one of its times and words, which is a time if it
is refused as one, or as a range of two that do not go together. -/
theorem piece_eq_error {it : Item} (h : it.piece = .error e) :
    (∃ a : Atom, .atom a ∈ it.tokens ∧ e.offending = a.text ∧
        (e.code = .invalidTime → a.isTime = true)) ∨
      ∃ a b : Atom, it = .range a b ∧
        (e = .timeMixedWithWord (dashed a.text b.text) ∨
          e = .dayMixedWithMonth (dashed a.text b.text)) := by
  match it, h with
  | .single (.time t), h =>
      cases h
      exact Or.inl ⟨.time t, by simp [Item.tokens], rfl, fun _ => rfl⟩
  | .single (.word w), h =>
      obtain rfl := wordPiece_eq_error h
      obtain ⟨hshown, hcode⟩ := offending_unknown w
      exact Or.inl ⟨.word w, by simp [Item.tokens], hshown, fun htime => absurd htime hcode⟩
  | .range (.time a) (.time b), h =>
      change (timeOfDay false a >>= fun start => timeOfDay true b >>= fun stop =>
        pure (Piece.hours ⟨start, stop⟩)) = .error e at h
      rcases bind_eq_error.mp h with hstart | ⟨start, -, hrest⟩
      · obtain rfl := timeOfDay_eq_error hstart
        exact Or.inl ⟨.time a, by simp [Item.tokens], rfl, fun _ => rfl⟩
      · rcases bind_eq_error.mp hrest with hstop | ⟨stop, -, hread⟩
        · obtain rfl := timeOfDay_eq_error hstop
          exact Or.inl ⟨.time b, by simp [Item.tokens], rfl, fun _ => rfl⟩
        · cases hread
  | .range (.word a) (.word b), h =>
      rcases wordRangePiece_eq_error h with ⟨w, hw, hshown, hcode⟩ | rfl
      · refine Or.inl ⟨.word w, ?_, hshown, fun htime => absurd htime hcode⟩
        rcases hw with rfl | rfl
        · simp [Item.tokens]
        · simp [Item.tokens]
      · exact Or.inr ⟨.word a, .word b, rfl, Or.inr rfl⟩
  | .range (.time a) (.word b), h =>
      cases h
      exact Or.inr ⟨.time a, .word b, rfl, Or.inl rfl⟩
  | .range (.word a) (.time b), h =>
      cases h
      exact Or.inr ⟨.word a, .time b, rfl, Or.inl rfl⟩

end Pieces

/-! ## Conditions -/

/-- Where a condition on days, months and hours is refused. -/
inductive Refused (s : Text) (e : Refusal) : Prop
  -- No token can be read at some place.
  | token {before rest : Text} {c : CodePoint} :
      s = before ++ c :: rest → lexeme c rest = .error e → Refused s e
  -- The tokens do not form items, or only commas are listed.
  | order : e = .rangeWithoutStart s ∨ e = .rangeWithoutEnd s ∨ e = .nothingListed s → Refused s e
  | item {ts : List Token} {its : List Item} {it : Item} :
      Spells s ts → Grouped ts its → it ∈ its → it.piece = .error e → Refused s e

section Conditions

variable {α : Type} [Quantity α] {key s a rest k : Text} {e : Refusal}

/-- **Why no windows are read** from a condition. -/
theorem windows_eq_error (h : windows s = .error e) : Refused s e := by
  unfold windows at h
  rcases bind_eq_error.mp h with htokens | ⟨ts, htokens, h⟩
  · obtain ⟨before, c, rest, hs, hlexeme⟩ := exists_of_tokens_eq_error htokens
    exact .token hs hlexeme
  rcases bind_eq_error.mp h with hitems | ⟨its, hitems, h⟩
  · exact .order ((items_eq_error hitems).imp_right Or.inl)
  split at h
  · cases h
    exact .order (Or.inr (Or.inr rfl))
  · rcases bind_eq_error.mp h with hpieces | ⟨ps, -, hdone⟩
    · obtain ⟨it, hit, hpiece⟩ := exists_of_mapM_eq_error hpieces
      exact .item (tokens_eq_ok_iff.mp htokens) (items_eq_ok_iff.mp hitems) hit hpiece
    · cases hdone

/-- A condition that begins with no name and of which no windows are read is refused for it. -/
theorem clause_of_windows_eq_error (haxis : Condition.axis? s = none) (h : windows s = .error e) :
    (clause key s : Except Fault (Clause α)) = .error (.refused key e) := by
  unfold clause
  rw [bound?_of_axis?_eq_none haxis, ok_bind]
  show ((windows s).mapError (Fault.refused key ·)).map _ = _
  rw [h]
  rfl

/-- Why a bound is refused: for its operator, its number or its unit. -/
theorem boundAfter_eq_refused
    (h : (boundAfter key s a rest : Except Fault (Comparison α)) = .error (.refused k e)) :
    e = .noOperator s ∨ e = .unsupportedOperator (rest.takeWhile isOperatorChar) ∨
      (e = .invalidNumber s ∨ e = .invalidNumber (trim (rest.dropWhile isOperatorChar))) ∨
        e = .unexpectedUnit a (trim (rest.dropWhile isOperatorChar)) := by
  unfold boundAfter at h
  dsimp only at h
  split at h
  · cases h
    exact Or.inl rfl
  · split at h
    · cases h
      exact Or.inr (Or.inl rfl)
    · split at h
      · split at h
        · cases h
          exact Or.inr (Or.inr (Or.inl (Or.inl rfl)))
        · cases h
          exact Or.inr (Or.inr (Or.inl (Or.inr rfl)))
      · split at h
        · cases h
        · split at h
          · cases h
          · split at h
            · cases h
            · cases h
              exact Or.inr (Or.inr (Or.inr rfl))

/-- **Why a condition is refused**: as a bound if it begins with the name of a dimension, and
otherwise as a condition on days, months and hours. -/
theorem clause_eq_refused (h : (clause key s : Except Fault (Clause α)) = .error (.refused k e)) :
    (∃ a rest, Condition.axis? s = some (a, rest) ∧
        (boundAfter key s a rest : Except Fault (Comparison α)) = .error (.refused k e)) ∨
      Condition.axis? s = none ∧ Refused s e := by
  unfold clause at h
  cases haxis : Condition.axis? s with
  | none =>
      rw [bound?_of_axis?_eq_none haxis, ok_bind] at h
      obtain ⟨refusal, hwindows, hrefused⟩ := mapError_eq_error.mp (map_eq_error.mp h)
      cases hrefused
      exact Or.inr ⟨rfl, windows_eq_error hwindows⟩
  | some p =>
      rw [bound?_of_axis?_eq_some haxis] at h
      rcases bind_eq_error.mp h with hbound | ⟨c, hbound, hclause⟩
      · exact Or.inl ⟨p.1, p.2, rfl, map_eq_error.mp hbound⟩
      · obtain ⟨b, -, rfl⟩ := map_eq_ok.mp hbound
        cases hclause

end Conditions

end RoadRules.Condition
