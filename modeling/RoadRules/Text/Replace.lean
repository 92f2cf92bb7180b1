import RoadRules.Text.Basic

set_option autoImplicit false

/-! # Finding and replacing parts of a text -/

namespace RoadRules.Text

def occursIn (part : Text) : Text → Bool
  | [] => part.isEmpty
  | c :: rest => part.isPrefixOf (c :: rest) || occursIn part rest

/-- A text with every occurrence of a part replaced, from left to right; `skip` counts the
characters that belong to an occurrence already replaced. -/
def replaceFrom (part replacement : Text) : Nat → Text → Text
  | _, [] => []
  | skip + 1, _ :: rest => replaceFrom part replacement skip rest
  | 0, c :: rest =>
    if part.isPrefixOf (c :: rest) then
      replacement ++ replaceFrom part replacement (part.length - 1) rest
    else c :: replaceFrom part replacement 0 rest

/-- A text with every occurrence of a part that is not empty replaced, from left to right. -/
def replaceAll (part replacement s : Text) : Text := replaceFrom part replacement 0 s

def removeAll (part s : Text) : Text := replaceAll part [] s

/-- The parts of a text between the occurrences of a character; there is always at least one. -/
def splitAt (mark : CodePoint) : Text → List Text
  | [] => [[]]
  | c :: rest =>
    if c == mark then [] :: splitAt mark rest
    else
      match splitAt mark rest with
      | [] => [[c]]
      | part :: parts => (c :: part) :: parts

/-- The text before the first occurrence of a character and the text after it. -/
def splitOnce? (mark : CodePoint) : Text → Option (Text × Text)
  | [] => none
  | c :: rest =>
    if c == mark then some ([], rest)
    else (splitOnce? mark rest).map fun p => (c :: p.1, p.2)

/-- Where a part does not occur, replacing it changes nothing. -/
theorem replaceAll_of_not_occursIn {part replacement s : Text}
    (h : occursIn part s = false) : replaceAll part replacement s = s := by
  unfold replaceAll
  induction s with
  | nil => rfl
  | cons c rest ih =>
    simp only [occursIn, Bool.or_eq_false_iff] at h
    simp only [replaceFrom, h.1, ih h.2, Bool.false_eq_true, if_false]

theorem splitOnce?_eq_some {mark : CodePoint} {s before after : Text}
    (h : splitOnce? mark s = some (before, after)) :
    s = before ++ mark :: after ∧ mark ∉ before := by
  induction s generalizing before with
  | nil => simp [splitOnce?] at h
  | cons c rest ih =>
    unfold splitOnce? at h
    split at h
    · rename_i hc
      simp only [Option.some.injEq, Prod.mk.injEq] at h
      obtain ⟨rfl, rfl⟩ := h
      simp [beq_iff_eq.mp hc]
    · rename_i hc
      simp only [Option.map_eq_some_iff, Prod.mk.injEq] at h
      obtain ⟨p, hp, rfl, rfl⟩ := h
      obtain ⟨h1, h2⟩ := ih hp
      refine ⟨by rw [h1]; rfl, ?_⟩
      simp only [List.mem_cons, not_or]
      exact ⟨fun e => hc (by simp [e]), h2⟩

end RoadRules.Text
