import Mathlib.Data.List.Induction
import Mathlib.Data.List.TakeWhile
import RoadRules.Text.Blank
import RoadRules.Text.Replace

set_option autoImplicit false

/-! # Trimming and splitting texts

White space around a text does not change what trimming leaves of it, and splitting gives back the
parts that a text was put together from. -/

namespace RoadRules.Text

variable {s t gap gap' : Text} {c mark : CodePoint}

/-! ## Trimming -/

theorem trimStart_append (h : ∀ c ∈ gap, isBlank c = true) :
    trimStart (gap ++ s) = trimStart s :=
  List.dropWhile_append_of_pos h

theorem trimEnd_append (h : ∀ c ∈ gap, isBlank c = true) : trimEnd (s ++ gap) = trimEnd s := by
  unfold trimEnd
  rw [List.reverse_append, List.dropWhile_append_of_pos]
  exact fun c hc => h c (List.mem_reverse.mp hc)

/-- Trimming leaves nothing of a text of blanks. -/
theorem trimStart_eq_nil (h : ∀ c ∈ gap, isBlank c = true) : trimStart gap = [] := by
  have happend := trimStart_append (s := []) h
  rwa [List.append_nil] at happend

/-- White space around a text is trimmed away. -/
theorem trim_around (h : ∀ c ∈ gap, isBlank c = true) (h' : ∀ c ∈ gap', isBlank c = true) :
    trim (gap ++ s ++ gap') = trim s := by
  unfold trim
  rw [List.append_assoc, trimStart_append h]
  unfold trimStart
  rw [List.dropWhile_append]
  split
  · rename_i hempty
    rw [List.isEmpty_iff.mp hempty]
    exact congrArg trimEnd (trimStart_eq_nil h')
  · exact trimEnd_append h'

/-- A text that begins with a character that is not blank has nothing to trim at its start. -/
theorem trimStart_cons (h : isBlank c = false) : trimStart (c :: s) = c :: s := by
  simp [trimStart, h]

theorem trimEnd_concat (h : isBlank c = false) : trimEnd (s ++ [c]) = s ++ [c] := by
  simp [trimEnd, h]

theorem trimEnd_of_forall (h : ∀ c ∈ s, isBlank c = false) : trimEnd s = s := by
  rcases List.eq_nil_or_concat s with rfl | ⟨init, c, rfl⟩
  · rfl
  · rw [List.concat_eq_append] at h ⊢
    exact trimEnd_concat (h c (by simp))

/-- A text whose last part has nothing to trim at its end has nothing to trim there. -/
theorem trimEnd_append_right (hne : t ≠ []) (h : trimEnd t = t) :
    trimEnd (s ++ t) = s ++ t := by
  have hdrop : t.reverse.dropWhile isBlank = t.reverse := by
    rw [← List.reverse_inj, List.reverse_reverse]
    exact h
  unfold trimEnd
  rw [List.reverse_append, List.dropWhile_append, hdrop, if_neg (by simpa using hne)]
  simp

/-- What holds of a text without the last blank holds of the text trimmed at its end. -/
theorem trimEnd_induction {P : Text → Prop}
    (hlast : ∀ s c, isBlank c = true → P (s ++ [c]) → P s) (h : P s) : P (trimEnd s) := by
  induction s using List.reverseRecOn with
  | nil => exact h
  | append_singleton s c ih =>
      by_cases hc : isBlank c = true
      · rw [trimEnd_append (fun d hd => List.mem_singleton.mp hd ▸ hc)]
        exact ih (hlast s c hc h)
      · rwa [trimEnd_concat (Bool.eq_false_iff.mpr hc)]

/-- What trimming takes away from a text is white space around what it leaves. -/
theorem exists_around_trim (s : Text) :
    ∃ gap gap' : Text, (∀ c ∈ gap, isBlank c = true) ∧ (∀ c ∈ gap', isBlank c = true) ∧
      s = gap ++ trim s ++ gap' := by
  refine ⟨s.takeWhile isBlank, ((trimStart s).reverse.takeWhile isBlank).reverse,
    fun c hc => List.mem_takeWhile_imp hc,
    fun c hc => List.mem_takeWhile_imp (List.mem_reverse.mp hc), ?_⟩
  have hend : trim s ++ ((trimStart s).reverse.takeWhile isBlank).reverse = trimStart s := by
    unfold trim trimEnd
    rw [← List.reverse_append, List.takeWhile_append_dropWhile, List.reverse_reverse]
  rw [List.append_assoc, hend]
  exact (List.takeWhile_append_dropWhile ..).symm

/-- Trimming takes only blanks away. -/
theorem mem_trim_of_mem (hc : isBlank c = false) (h : c ∈ s) : c ∈ trim s := by
  obtain ⟨gap, gap', hgap, hgap', hs⟩ := exists_around_trim s
  have hno : ∀ g : Text, (∀ d ∈ g, isBlank d = true) → c ∉ g := fun g hg hmem => by
    rw [hg c hmem] at hc
    cases hc
  rw [hs, List.mem_append, List.mem_append] at h
  exact (h.resolve_right (hno gap' hgap')).resolve_left (hno gap hgap)

/-- Trimming leaves something of a text that holds more than blanks. -/
theorem trim_ne_nil (hc : c ∈ s) (h : isBlank c = false) : trim s ≠ [] :=
  List.ne_nil_of_mem (mem_trim_of_mem h hc)

/-- Trimming twice is trimming once. -/
theorem trim_trim (s : Text) : trim (trim s) = trim s := by
  obtain ⟨gap, gap', hgap, hgap', hs⟩ := exists_around_trim s
  conv_rhs => rw [hs, trim_around hgap hgap']

theorem length_trim_le (s : Text) : (trim s).length ≤ s.length := by
  obtain ⟨gap, gap', -, -, hs⟩ := exists_around_trim s
  have hlength := congrArg List.length hs
  rw [List.length_append, List.length_append] at hlength
  omega

/-- A text that trimming leaves as it is does not begin with white space. -/
theorem eq_nil_of_trim_append (hgap : ∀ c ∈ gap, isBlank c = true)
    (h : trim (gap ++ s) = gap ++ s) : gap = [] := by
  have htrim : trim (gap ++ s) = trim s := congrArg trimEnd (trimStart_append hgap)
  have hle := length_trim_le s
  rw [← htrim, h, List.length_append] at hle
  exact List.length_eq_zero_iff.mp (by omega)

/-! ## Runs of characters -/

section Runs

variable {p : CodePoint → Bool}

/-- The run at the start of a text is the part in front of the first character that ends it. -/
theorem takeWhile_append_of_head (hs : ∀ c ∈ s, p c = true)
    (ht : ∀ c, t.head? = some c → p c = false) : (s ++ t).takeWhile p = s := by
  rw [List.takeWhile_append_of_pos hs]
  cases t with
  | nil => simp
  | cons d rest => simp [ht d rfl]

theorem dropWhile_append_of_head (hs : ∀ c ∈ s, p c = true)
    (ht : ∀ c, t.head? = some c → p c = false) : (s ++ t).dropWhile p = t := by
  rw [List.dropWhile_append_of_pos hs]
  cases t with
  | nil => rfl
  | cons d rest => simp [ht d rfl]

theorem drop_length_takeWhile (p : CodePoint → Bool) (s : Text) :
    s.drop (s.takeWhile p).length = s.dropWhile p := by
  induction s with
  | nil => rfl
  | cons c rest ih =>
      by_cases hc : p c = true
      · simpa [hc] using ih
      · simp [hc]

end Runs

/-! ## Splitting -/

theorem splitAt_ne_nil (mark : CodePoint) (s : Text) : splitAt mark s ≠ [] := by
  cases s with
  | nil => exact List.cons_ne_nil _ _
  | cons c rest =>
      unfold splitAt
      split
      · exact List.cons_ne_nil _ _
      · split <;> exact List.cons_ne_nil _ _

theorem splitAt_of_not_mem (h : mark ∉ s) : splitAt mark s = [s] := by
  induction s with
  | nil => rfl
  | cons c rest ih =>
      rw [List.mem_cons, not_or] at h
      obtain ⟨hc, hrest⟩ := h
      have hne : (c == mark) = false := beq_eq_false_iff_ne.mpr (Ne.symm hc)
      simp [splitAt, hne, ih hrest]

theorem splitAt_append_cons (h : mark ∉ s) :
    splitAt mark (s ++ mark :: t) = s :: splitAt mark t := by
  induction s with
  | nil => simp [splitAt]
  | cons c rest ih =>
      rw [List.mem_cons, not_or] at h
      obtain ⟨hc, hrest⟩ := h
      have hne : (c == mark) = false := beq_eq_false_iff_ne.mpr (Ne.symm hc)
      simp [splitAt, hne, ih hrest]

theorem joined_cons_cons (part next : Text) (rest : List Text) :
    joined [mark] (part :: next :: rest) = part ++ mark :: joined [mark] (next :: rest) := by
  simp [joined, List.intercalate]

/-- Joining texts with a longer mark is the same as lengthening the texts but the first. -/
theorem joined_append_mark (mark : CodePoint) (gap first : Text) (others : List Text) :
    joined [mark] (first :: others.map (gap ++ ·)) = joined (mark :: gap) (first :: others) := by
  have hlonger : ∀ (s : Text) (l : List Text),
      joined [mark] ((gap ++ s) :: l) = gap ++ joined [mark] (s :: l) := by
    intro s l
    cases l <;> simp [joined, List.intercalate]
  induction others generalizing first with
  | nil => rfl
  | cons next rest ih =>
      have hcons : joined (mark :: gap) (first :: next :: rest) =
          first ++ mark :: (gap ++ joined (mark :: gap) (next :: rest)) := by
        simp [joined, List.intercalate]
      rw [List.map_cons, joined_cons_cons, hlonger, ih, hcons]

/-- Splitting gives back parts that were joined by the mark. -/
theorem splitAt_joined {parts : List Text} (hne : parts ≠ [])
    (h : ∀ part ∈ parts, mark ∉ part) : splitAt mark (joined [mark] parts) = parts := by
  induction parts with
  | nil => exact absurd rfl hne
  | cons part rest ih =>
      have hpart := h part List.mem_cons_self
      cases rest with
      | nil => simpa [joined, List.intercalate] using splitAt_of_not_mem hpart
      | cons next rest =>
          have hrest := ih (by simp) fun p hp => h p (List.mem_cons_of_mem _ hp)
          rw [joined_cons_cons, splitAt_append_cons hpart, hrest]

theorem mem_joined {parts : List Text} (h : c ∈ joined [mark] parts) :
    c = mark ∨ ∃ part ∈ parts, c ∈ part := by
  induction parts with
  | nil => cases h
  | cons part rest ih =>
      cases rest with
      | nil => exact Or.inr ⟨part, by simp, by simpa [joined, List.intercalate] using h⟩
      | cons next rest =>
          rw [joined_cons_cons, List.mem_append, List.mem_cons] at h
          rcases h with h | h | h
          · exact Or.inr ⟨part, List.mem_cons_self, h⟩
          · exact Or.inl h
          · exact (ih h).imp_right fun ⟨p, hp, hc⟩ => ⟨p, List.mem_cons_of_mem _ hp, hc⟩

/-- The parts of a text are joined to the text. -/
theorem joined_splitAt (mark : CodePoint) (s : Text) : joined [mark] (splitAt mark s) = s := by
  induction s with
  | nil => rfl
  | cons c rest ih =>
      obtain ⟨part, parts, hparts⟩ := List.exists_cons_of_ne_nil (splitAt_ne_nil mark rest)
      unfold splitAt
      by_cases hc : (c == mark) = true
      · rw [if_pos hc, hparts, joined_cons_cons, ← hparts, ih, beq_iff_eq.mp hc]
        rfl
      · have hlonger :
            joined [mark] ((c :: part) :: parts) = c :: joined [mark] (part :: parts) := by
          cases parts with
          | nil => simp [joined, List.intercalate]
          | cons next parts => rw [joined_cons_cons, joined_cons_cons, List.cons_append]
        rw [if_neg hc, hparts]
        show joined [mark] ((c :: part) :: parts) = c :: rest
        rw [hlonger, ← hparts, ih]

/-- Each of several parts stands in the text that they are joined to. -/
theorem infix_joined {part : Text} {parts : List Text} (h : part ∈ parts) :
    part <:+: joined [mark] parts := by
  induction parts with
  | nil => cases h
  | cons first rest ih =>
      cases rest with
      | nil =>
          rw [List.mem_singleton.mp h]
          simp [joined, List.intercalate]
      | cons next rest =>
          rw [joined_cons_cons]
          rcases List.mem_cons.mp h with rfl | h
          · exact (List.prefix_append _ _).isInfix
          · exact (ih h).trans ((List.suffix_cons _ _).trans (List.suffix_append _ _)).isInfix

theorem splitOnce?_append (h : mark ∉ s) : splitOnce? mark (s ++ mark :: t) = some (s, t) := by
  induction s with
  | nil => simp [splitOnce?]
  | cons c rest ih =>
      rw [List.mem_cons, not_or] at h
      obtain ⟨hc, hrest⟩ := h
      have hne : (c == mark) = false := beq_eq_false_iff_ne.mpr (Ne.symm hc)
      simp [splitOnce?, hne, ih hrest]

end RoadRules.Text
