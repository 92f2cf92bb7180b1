import RoadRules.Proofs.Text.Words
import RoadRules.Review.Suggestion

set_option autoImplicit false

/-! # Names of days and months in their right case

`Recased` says without an algorithm that a text has the names of days and months in other cases than
another text. A text is recased word by word: what is changed are names that are words of the text
(`recased_recase`), and all of them that are words are found again (`Recased.recase_eq`). -/

namespace RoadRules

open Text

namespace Suggestion

/-- **Texts that differ in the case of names**: the second is the first with some of the names of
days and months in other cases. No character of a class may stand beside such a name, and `last` is
the character in front of the texts. -/
inductive Recased (p : CodePoint → Bool) : Option CodePoint → Text → Text → Prop
  | nil {last : Option CodePoint} : Recased p last [] []
  | char {last : Option CodePoint} {c : CodePoint} {s s' : Text} :
      Recased p (some c) s s' → Recased p last (c :: s) (c :: s')
  | name {last : Option CodePoint} {name word s s' : Text} :
      name ∈ names → word.map CodePoint.toLower = name.map CodePoint.toLower →
        (∀ c, last = some c → p c = false) → (∀ c, s.head? = some c → p c = false) →
          Recased p name.getLast? s s' → Recased p last (name ++ s) (word ++ s')

/-! ## Words -/

section Words

variable {word name : Text}

theorem isAlpha_of_mem_names (h : name ∈ names) : ∀ c ∈ name, c.isAlpha = true := by
  have hall : ∀ name ∈ names, ∀ c ∈ name, c.isAlpha = true := by decide
  exact hall name h

theorem length_of_mem_names (h : name ∈ names) : name.length = 2 ∨ name.length = 3 := by
  have hall : ∀ name ∈ names, name.length = 2 ∨ name.length = 3 := by decide
  exact hall name h

/-- A text that spells a name in some case consists of letters. -/
theorem isAlpha_of_spelt (hname : name ∈ names)
    (h : word.map CodePoint.toLower = name.map CodePoint.toLower) :
    ∀ c ∈ word, c.isAlpha = true := by
  intro c hc
  have hmem : c.toLower ∈ name.map CodePoint.toLower := h ▸ List.mem_map_of_mem hc
  obtain ⟨d, hd, hsame⟩ := List.mem_map.mp hmem
  rw [← CodePoint.isAlpha_toLower, ← hsame, CodePoint.isAlpha_toLower]
  exact isAlpha_of_mem_names hname d hd

/-- **A name in any case is found again.** -/
theorem recaseWord_of_spelt (hname : name ∈ names)
    (h : word.map CodePoint.toLower = name.map CodePoint.toLower) : recaseWord word = name := by
  have hletters : word.all CodePoint.isAlpha = true :=
    List.all_eq_true.mpr (isAlpha_of_spelt hname h)
  have hdiffer : ∀ a ∈ names, ∀ b ∈ names,
      a.map CodePoint.toLower = b.map CodePoint.toLower → a = b := by decide
  unfold recaseWord
  rw [if_pos hletters]
  split
  · rename_i found hfound
    have hsame : found.map CodePoint.toLower = word.map CodePoint.toLower := by
      simpa using List.find?_some hfound
    exact hdiffer found (List.mem_of_find?_eq_some hfound) name hname (hsame.trans h)
  · rename_i hnone
    have hno := List.find?_eq_none.mp hnone name hname
    rw [beq_iff_eq] at hno
    exact absurd h.symm hno

/-- A word stays, or it is a name in some case and becomes the name. -/
theorem recaseWord_cases (word : Text) :
    recaseWord word = word ∨ ∃ name ∈ names,
      word.map CodePoint.toLower = name.map CodePoint.toLower ∧ recaseWord word = name := by
  unfold recaseWord
  split
  · split
    · rename_i found hfound
      have hsame : found.map CodePoint.toLower = word.map CodePoint.toLower := by
        simpa using List.find?_some hfound
      exact Or.inr ⟨found, List.mem_of_find?_eq_some hfound, hsame.symm, rfl⟩
    · exact Or.inl rfl
  · exact Or.inl rfl

/-- A word that spells no name stays. -/
theorem recaseWord_of_not_spelt
    (h : ∀ name ∈ names, word.map CodePoint.toLower ≠ name.map CodePoint.toLower) :
    recaseWord word = word := by
  rcases recaseWord_cases word with hsame | ⟨name, hname, hspelt, -⟩
  · exact hsame
  · exact absurd hspelt (h name hname)

theorem recaseWord_of_length (h : word.length ≠ 2 ∧ word.length ≠ 3) : recaseWord word = word := by
  refine recaseWord_of_not_spelt fun name hname hspelt => ?_
  have hlength : word.length = name.length := by simpa using congrArg List.length hspelt
  rcases length_of_mem_names hname with hname | hname
  · exact h.1 (hlength.trans hname)
  · exact h.2 (hlength.trans hname)

theorem recaseWord_of_not_isAlpha {c : CodePoint} (hc : c ∈ word) (h : c.isAlpha = false) :
    recaseWord word = word := by
  have hletters : ¬ word.all CodePoint.isAlpha = true := fun hall => by
    rw [List.all_eq_true.mp hall c hc] at h
    cases h
  rw [recaseWord, if_neg hletters]

end Words

/-! ## Texts -/

section Texts

variable {s t w word : Text} {c : CodePoint}

theorem recase_nil : recase [] = [] := by decide

/-- A character outside of words parts what is recased. -/
theorem recaseFrom_append_cons (hc : isWordChar c = false) :
    recaseFrom word (s ++ c :: t) = recaseFrom word s ++ c :: recase t := by
  induction s generalizing word with
  | nil =>
      have hnot : ¬ isWordChar c = true := by simp [hc]
      show (if isWordChar c = true then _ else _) = _
      rw [if_neg hnot]
      rfl
  | cons d rest ih =>
      by_cases hd : isWordChar d = true
      · rw [List.cons_append, recaseFrom, recaseFrom, if_pos hd, if_pos hd, ih]
      · rw [List.cons_append, recaseFrom, recaseFrom, if_neg hd, if_neg hd, ih,
          List.append_assoc, List.cons_append]

theorem recase_append_cons (hc : isWordChar c = false) :
    recase (s ++ c :: t) = recase s ++ c :: recase t :=
  recaseFrom_append_cons hc

theorem recase_cons (hc : isWordChar c = false) : recase (c :: s) = c :: recase s := by
  have happend := recase_append_cons (s := []) (t := s) hc
  rwa [List.nil_append, recase_nil, List.nil_append] at happend

/-- **A word is recased for itself.** -/
theorem recaseFrom_word (hw : ∀ c ∈ w, isWordChar c = true)
    (hs : ∀ c, s.head? = some c → isWordChar c = false) :
    recaseFrom word (w ++ s) = recaseWord (word.reverse ++ w) ++ recase s := by
  induction w generalizing word with
  | nil =>
      rw [List.append_nil, List.nil_append]
      cases s with
      | nil => rw [recase_nil, List.append_nil, recaseFrom]
      | cons c rest =>
          have hc := hs c rfl
          have hnot : ¬ isWordChar c = true := by simp [hc]
          rw [recase_cons hc, recaseFrom, if_neg hnot]
          rfl
  | cons c rest ih =>
      obtain ⟨hc, hrest⟩ := List.forall_mem_cons.mp hw
      rw [List.cons_append, recaseFrom, if_pos hc, ih hrest, List.reverse_cons, List.append_assoc,
        List.singleton_append]

theorem recase_word (hw : ∀ c ∈ w, isWordChar c = true)
    (hs : ∀ c, s.head? = some c → isWordChar c = false) :
    recase (w ++ s) = recaseWord w ++ recase s :=
  recaseFrom_word hw hs

/-- **A text whose words stay** stays. -/
theorem recase_eq_self (h : ∀ w, HasWord isWordChar s w → recaseWord w = w) : recase s = s := by
  induction s using word_induction isWordChar with
  | nil => exact recase_nil
  | mark c s hc ih =>
      rw [recase_cons hc]
      congr 1
      exact ih fun w hw => h w (hw.append_left (s := [c]) (by simpa using hc))
  | word w s hne hw hs ih =>
      have hfirst : recaseWord w = w := h w ⟨[], s, rfl, hne, hw, nofun, hs⟩
      have hrest : recase s = s := by
        refine ih fun v hv => ?_
        cases s with
        | nil => exact absurd hv not_hasWord_nil
        | cons c rest =>
            -- The word stands behind the character that ends the first one.
            have hc := hs c rfl
            have hword : HasWord isWordChar rest v :=
              HasWord.of_append_left (s := [c]) (by simpa using hc) hv
            have happend : w ++ c :: rest = (w ++ [c]) ++ rest := by simp
            exact h v (happend ▸ hword.append_left (by simpa using hc))
      rw [recase_word hw hs, hfirst, hrest]

end Texts

/-! ## Texts that differ in the case of names -/

namespace Recased

variable {p : CodePoint → Bool} {last : Option CodePoint} {s s' : Text}

theorem map_toLower (h : Recased p last s s') :
    s'.map CodePoint.toLower = s.map CodePoint.toLower := by
  induction h with
  | nil => rfl
  | char _ ih => rw [List.map_cons, List.map_cons, ih]
  | name _ hword _ _ _ ih => rw [List.map_append, List.map_append, hword, ih]

/-- Texts that begin alike differ in what follows. -/
theorem append_left (w : Text) (h : ∀ last, Recased p last s s') :
    Recased p last (w ++ s) (w ++ s') := by
  induction w generalizing last with
  | nil => exact h last
  | cons c rest ih => exact .char ih

/-- A character outside of words stands in front of both texts or of none. -/
theorem head?_not_isWordChar (h : Recased p last s s')
    (hs : ∀ c, s.head? = some c → isWordChar c = false) :
    ∀ c, s'.head? = some c → isWordChar c = false := by
  intro c hc
  have hlower := congrArg List.head? h.map_toLower
  rw [List.head?_map, List.head?_map, hc] at hlower
  cases hhead : s.head? with
  | none =>
      rw [hhead] at hlower
      cases hlower
  | some d =>
      rw [hhead] at hlower
      have hd := hs d hhead
      have hsame := CodePoint.eq_of_toLower_eq (not_isAlpha_of_not_isWordChar hd)
        (Option.some.inj hlower)
      rwa [hsame]

/-- A text that is being read as a part of a word is recased like the other, unless a name that
stands for itself comes next. -/
theorem recaseFrom_eq (h : Recased isWordChar last s s') {word : Text}
    (hword : (∀ c, last = some c → isWordChar c = false) → word = []) :
    recaseFrom word s' = recaseFrom word s := by
  induction h generalizing word with
  | nil => rfl
  | @char last c s s' _ ih =>
      by_cases hc : isWordChar c = true
      · rw [recaseFrom, recaseFrom, if_pos hc, if_pos hc]
        refine ih fun hnot => ?_
        rw [hnot c rfl] at hc
        cases hc
      · rw [recaseFrom, recaseFrom, if_neg hc, if_neg hc, ih fun _ => rfl]
  | @name last name spelt s s' hname hspelt hlast hhead hrest ih =>
      have hletters : ∀ c ∈ name, isWordChar c = true := fun c hc =>
        isWordChar_of_isAlpha (isAlpha_of_mem_names hname c hc)
      have hletters' : ∀ c ∈ spelt, isWordChar c = true := fun c hc =>
        isWordChar_of_isAlpha (isAlpha_of_spelt hname hspelt c hc)
      have htail : recase s' = recase s := ih fun _ => rfl
      rw [hword hlast, recaseFrom_word hletters' (hrest.head?_not_isWordChar hhead),
        recaseFrom_word hletters hhead, htail, List.reverse_nil, List.nil_append, List.nil_append,
        recaseWord_of_spelt hname hspelt, recaseWord_of_spelt hname rfl]

/-- **Texts that differ in the case of names that are words** are the same when they are
recased. -/
theorem recase_eq (h : Recased isWordChar last s s') : recase s' = recase s :=
  h.recaseFrom_eq fun _ => rfl

end Recased

/-- **What is recased are names that are words.** -/
theorem recased_recase (s : Text) {last : Option CodePoint}
    (hlast : ∀ c, last = some c → isWordChar c = false) :
    Recased isWordChar last (recase s) s := by
  -- A text that begins outside of words may follow any character.
  have hall : ∀ last, ((∀ c, last = some c → isWordChar c = false) ∨
      ∀ c, s.head? = some c → isWordChar c = false) → Recased isWordChar last (recase s) s := by
    induction s using word_induction isWordChar with
    | nil =>
        intro last _
        rw [recase_nil]
        exact .nil
    | mark c s hc ih =>
        intro last _
        rw [recase_cons hc]
        exact .char (ih (some c) (Or.inl (by rintro _ ⟨⟩; exact hc)))
    | word w s hne hw hs ih =>
        intro last hends
        have hlast : ∀ c, last = some c → isWordChar c = false := by
          refine hends.resolve_right fun hhead => ?_
          obtain ⟨c, rest, rfl⟩ := List.exists_cons_of_ne_nil hne
          have hc := hw c List.mem_cons_self
          rw [hhead c rfl] at hc
          cases hc
        have hrest : ∀ last, Recased isWordChar last (recase s) s := fun last =>
          ih last (Or.inr hs)
        rw [recase_word hw hs]
        rcases recaseWord_cases w with hsame | ⟨name, hname, hspelt, heq⟩
        · rw [hsame]
          exact .append_left w hrest
        · rw [heq]
          refine .name hname hspelt hlast ?_ (hrest _)
          cases s with
          | nil => exact nofun
          | cons c rest =>
              rw [recase_cons (hs c rfl)]
              exact hs
  exact hall last (Or.inl hlast)

/-! ## What recasing keeps -/

section Kept

variable {s : Text} {c : CodePoint}

theorem map_toLower_recase (s : Text) :
    (recase s).map CodePoint.toLower = s.map CodePoint.toLower := by
  have hwords : Recased isWordChar none (recase s) s := recased_recase s nofun
  exact hwords.map_toLower.symm

/-- Recased texts have the same characters outside of names. -/
theorem mem_recase_iff (hc : c.isAlpha = false) : c ∈ recase s ↔ c ∈ s := by
  have hlower := map_toLower_recase s
  exact ⟨mem_of_map_toLower_eq hc hlower, mem_of_map_toLower_eq hc hlower.symm⟩

theorem length_recase (s : Text) : (recase s).length = s.length := by
  simpa using congrArg List.length (map_toLower_recase s)

/-- Names are put into their right case once. -/
theorem recase_recase (s : Text) : recase (recase s) = recase s := by
  have hwords : Recased isWordChar none (recase s) s := recased_recase s nofun
  exact hwords.recase_eq.symm

end Kept

end Suggestion

end RoadRules
