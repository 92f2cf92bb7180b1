import Mathlib.Data.List.DropRight
import Mathlib.Data.List.Infix
import RoadRules.Proofs.Text.Classes
import RoadRules.Text.Replace

set_option autoImplicit false

/-! # Words of a text

A word of a text is a run of characters of some class that goes as far as it can. Which words a text
has depends on the class: with the ASCII letters as the class they are the words that a condition is
read from, and with the characters that programs commonly take for parts of words they are the words
that are looked up when a correction is made. -/

namespace RoadRules

open CodePoint

namespace CodePoint

variable {c d : CodePoint}

theorem eq_of_code_eq (h : c.code = d.code) : c = d := by
  rw [← ofCode_code c, h, ofCode_code]

theorem code_toLower (c : CodePoint) :
    c.toLower.code = if 65 ≤ c.code ∧ c.code ≤ 90 then c.code + 32 else c.code := by
  cases c with
  | char c =>
      show (Char.toLower c).toNat = if 65 ≤ c.toNat ∧ c.toNat ≤ 90 then c.toNat + 32 else c.toNat
      by_cases hupper : c.val ≥ 'A'.val ∧ c.val ≤ 'Z'.val
      · have hrange : 65 ≤ c.toNat ∧ c.toNat ≤ 90 := hupper
        have hsum : (c.val + ('a'.val - 'A'.val)).toNat = c.toNat + 32 := by
          have hadd : (c.val + 32).toNat = (c.val.toNat + 32) % 2 ^ 32 := UInt32.toNat_add ..
          have hval : c.val.toNat ≤ 90 := hrange.2
          rw [Nat.mod_eq_of_lt (by omega)] at hadd
          exact hadd
        have hlower : Char.toLower c = _ := dif_pos hupper
        rw [hlower, if_pos hrange]
        exact hsum
      · have hrange : ¬ (65 ≤ c.toNat ∧ c.toNat ≤ 90) := hupper
        have hlower : Char.toLower c = c := dif_neg hupper
        rw [hlower, if_neg hrange]
  | surrogate place =>
      have hrange : ¬ (65 ≤ (surrogate place).code ∧ (surrogate place).code ≤ 90) := by
        simp only [code]
        omega
      rw [if_neg hrange]
      rfl

/-- A character is a letter in any case or in none. -/
theorem isAlpha_toLower (c : CodePoint) : c.toLower.isAlpha = c.isAlpha := by
  rw [Bool.eq_iff_iff, isAlpha_iff_code, isAlpha_iff_code, code_toLower]
  split <;> omega

/-- Only letters have a case. -/
theorem toLower_of_not_isAlpha (h : c.isAlpha = false) : c.toLower = c := by
  have hcode : ¬ (65 ≤ c.code ∧ c.code ≤ 90) := fun hrange => by
    rw [isAlpha_iff_code.mpr (Or.inl hrange)] at h
    cases h
  apply eq_of_code_eq
  rw [code_toLower, if_neg hcode]

/-- A character that is no letter is not the same as another in any case. -/
theorem eq_of_toLower_eq (hd : d.isAlpha = false) (h : c.toLower = d.toLower) : c = d := by
  have hc : c.isAlpha = false := by rw [← isAlpha_toLower, h, isAlpha_toLower, hd]
  rwa [toLower_of_not_isAlpha hc, toLower_of_not_isAlpha hd] at h

end CodePoint

namespace Text

/-- A character that is no letter stands in a text in whatever case its letters are. -/
theorem mem_of_map_toLower_eq {c : CodePoint} {s t : Text} (hc : c.isAlpha = false)
    (h : s.map CodePoint.toLower = t.map CodePoint.toLower) (hmem : c ∈ s) : c ∈ t := by
  have hlower : c.toLower ∈ t.map CodePoint.toLower := h ▸ List.mem_map_of_mem hmem
  obtain ⟨d, hd, hsame⟩ := List.mem_map.mp hlower
  rwa [← CodePoint.eq_of_toLower_eq hc hsame]

theorem isWordChar_of_isAlpha {c : CodePoint} (h : c.isAlpha = true) : isWordChar c = true := by
  have hcode : c.code < 128 := by
    rcases isAlpha_iff_code.mp h with h | h <;> omega
  simp [isWordChar, hcode, h]

theorem not_isAlpha_of_not_isWordChar {c : CodePoint} (h : isWordChar c = false) :
    c.isAlpha = false := by
  refine Bool.eq_false_iff.mpr fun halpha => ?_
  rw [isWordChar_of_isAlpha halpha] at h
  cases h

/-- Whether a text has a word: a run of characters of a class that no other of them is next to. -/
def HasWord (p : CodePoint → Bool) (s w : Text) : Prop :=
  ∃ a b, s = a ++ (w ++ b) ∧ w ≠ [] ∧ (∀ c ∈ w, p c = true) ∧
    (∀ c, a.getLast? = some c → p c = false) ∧ ∀ c, b.head? = some c → p c = false

section Words

variable {p q : CodePoint → Bool} {s t w y : Text} {c : CodePoint}

theorem not_hasWord_nil : ¬ HasWord p [] w := by
  rintro ⟨a, b, hs, hne, -⟩
  exact hne (List.append_eq_nil_iff.mp (List.append_eq_nil_iff.mp hs.symm).2).1

/-- A text of characters of the class has no word but itself. -/
theorem HasWord.eq_self (hs : ∀ c ∈ s, p c = true) (h : HasWord p s w) : w = s := by
  obtain ⟨a, b, rfl, -, -, hfirst, hlast⟩ := h
  have ha : a = [] := by
    rcases List.eq_nil_or_concat a with rfl | ⟨init, c, rfl⟩
    · rfl
    · have hc := hfirst c (by simp)
      rw [hs c (by simp)] at hc
      cases hc
  have hb : b = [] := by
    cases b with
    | nil => rfl
    | cons c rest =>
        have hc := hlast c rfl
        rw [hs c (by simp)] at hc
        cases hc
  rw [ha, hb, List.nil_append, List.append_nil]

/-- **A character outside of the class parts the words** of the texts on its two sides. -/
theorem HasWord.of_append_cons (hc : p c = false) (h : HasWord p (s ++ c :: t) w) :
    HasWord p s w ∨ HasWord p t w := by
  obtain ⟨a, b, hs, hne, hw, hfirst, hlast⟩ := h
  have hnot : c ∉ w := fun hmem => by
    rw [hw c hmem] at hc
    cases hc
  rcases List.append_eq_append_iff.mp hs with ⟨u, rfl, hright⟩ | ⟨u, rfl, hleft⟩
  · -- The word stands behind the character.
    cases u with
    | nil =>
        obtain ⟨d, rest, rfl⟩ := List.exists_cons_of_ne_nil hne
        cases hright
        exact absurd List.mem_cons_self hnot
    | cons d u =>
        obtain ⟨rfl, rfl⟩ := List.cons.inj hright
        refine Or.inr ⟨u, b, rfl, hne, hw, fun x hx => hfirst x ?_, hlast⟩
        cases u with
        | nil => cases hx
        | cons e u => simpa using hx
  · rcases List.append_eq_append_iff.mp hleft with ⟨v, rfl, hv⟩ | ⟨v, rfl, hv⟩
    · -- It stands in front of the character.
      refine Or.inl ⟨a, v, rfl, hne, hw, hfirst, fun x hx => hlast x ?_⟩
      rw [hv, List.head?_append, hx]
      rfl
    · cases v with
      | nil =>
          refine Or.inl ⟨a, [], by simp, by simpa using hne, by simpa using hw, hfirst, nofun⟩
      | cons d v =>
          obtain ⟨rfl, -⟩ := List.cons.inj hv
          exact absurd (by simp) hnot

/-- Characters outside of the class in front of a text give it no word, -/
theorem HasWord.of_append_left (hs : ∀ c ∈ s, p c = false) (h : HasWord p (s ++ t) w) :
    HasWord p t w := by
  induction s with
  | nil => exact h
  | cons c rest ih =>
      obtain ⟨hc, hrest⟩ := List.forall_mem_cons.mp hs
      have hcons : HasWord p ([] ++ c :: (rest ++ t)) w := h
      rcases hcons.of_append_cons hc with hnone | hword
      · exact absurd hnone not_hasWord_nil
      · exact ih hrest hword

/-- and neither do such characters behind it. -/
theorem HasWord.of_append_right (ht : ∀ c ∈ t, p c = false) (h : HasWord p (s ++ t) w) :
    HasWord p s w := by
  cases t with
  | nil => rwa [List.append_nil] at h
  | cons c rest =>
      obtain ⟨hc, hrest⟩ := List.forall_mem_cons.mp ht
      rcases h.of_append_cons hc with hword | hnone
      · exact hword
      · have hnil : HasWord p (rest ++ []) w := by rwa [List.append_nil]
        exact absurd (hnil.of_append_left hrest) not_hasWord_nil

/-- A word of a text stays one when something is put in front of the text that ends outside of the
class. -/
theorem HasWord.append_left (hs : ∀ c, s.getLast? = some c → p c = false) (h : HasWord p t w) :
    HasWord p (s ++ t) w := by
  obtain ⟨a, b, rfl, hne, hw, hfirst, hlast⟩ := h
  refine ⟨s ++ a, b, by rw [List.append_assoc], hne, hw, fun c hc => ?_, hlast⟩
  rw [List.getLast?_append] at hc
  cases ha : a.getLast? with
  | none =>
      rw [ha] at hc
      exact hs c hc
  | some d =>
      rw [ha] at hc
      exact hfirst c (ha.trans hc)

/-- A word of letters is a word for a smaller class that has its letters. -/
theorem HasWord.of_class (hw : ∀ c ∈ w, q c = true) (hclass : ∀ c, p c = false → q c = false)
    (h : HasWord p s w) : HasWord q s w := by
  obtain ⟨a, b, hs, hne, -, hfirst, hlast⟩ := h
  exact ⟨a, b, hs, hne, hw, fun c hc => hclass c (hfirst c hc), fun c hc => hclass c (hlast c hc)⟩

/-- Characters of the class that stand together in a text belong to one of its words. -/
theorem exists_hasWord (hne : y ≠ []) (hy : ∀ c ∈ y, p c = true) (h : y <:+: s) :
    ∃ w, HasWord p s w ∧ y <:+: w := by
  obtain ⟨a, b, rfl⟩ := h
  have ha : a = a.rdropWhile p ++ a.rtakeWhile p := by
    simp [List.rdropWhile, List.rtakeWhile, ← List.reverse_append]
  have hb : b = b.takeWhile p ++ b.dropWhile p := List.takeWhile_append_dropWhile.symm
  refine ⟨a.rtakeWhile p ++ (y ++ b.takeWhile p),
    ⟨a.rdropWhile p, b.dropWhile p, ?_, ?_, ?_, ?_, ?_⟩, a.rtakeWhile p, b.takeWhile p, ?_⟩
  · calc
      a ++ y ++ b
        = (a.rdropWhile p ++ a.rtakeWhile p) ++ y ++ (b.takeWhile p ++ b.dropWhile p) := by
          rw [← ha, ← hb]
      _ = a.rdropWhile p ++ (a.rtakeWhile p ++ (y ++ b.takeWhile p) ++ b.dropWhile p) := by
          simp only [List.append_assoc]
  · simp [hne]
  · intro c hc
    rcases List.mem_append.mp hc with hc | hc
    · exact List.mem_rtakeWhile_imp hc
    · rcases List.mem_append.mp hc with hc | hc
      · exact hy c hc
      · exact List.mem_takeWhile_imp hc
  · intro c hc
    have hsome : a.rdropWhile p ≠ [] := by
      intro hnil
      rw [hnil] at hc
      cases hc
    have hlast := List.rdropWhile_last_not p a hsome
    rw [List.getLast?_eq_some_getLast hsome] at hc
    cases hc
    simpa using hlast
  · intro c hc
    have hfirst := List.head?_dropWhile_not p b
    rwa [hc] at hfirst
  · rw [List.append_assoc]

/-- A part without a character stands on one side of it. -/
theorem infix_of_append_cons (hc : c ∉ y) (h : y <:+: s ++ c :: t) : y <:+: s ∨ y <:+: t := by
  cases y with
  | nil => exact Or.inl List.nil_infix
  | cons d y =>
      obtain ⟨w, hword, hy⟩ := exists_hasWord (p := fun x => x != c) (by simp) (fun x hx => by
        rw [bne_iff_ne]
        rintro rfl
        exact hc hx) h
      rcases hword.of_append_cons (by simp) with hword | hword
      · obtain ⟨a, b, rfl, -⟩ := hword
        exact Or.inl (hy.trans ⟨a, b, by simp⟩)
      · obtain ⟨a, b, rfl, -⟩ := hword
        exact Or.inr (hy.trans ⟨a, b, by simp⟩)

/-- **Induction over the words of a text** and the characters between them. -/
theorem word_induction {P : Text → Prop} (p : CodePoint → Bool) (nil : P [])
    (mark : ∀ c s, p c = false → P s → P (c :: s))
    (word : ∀ w s, w ≠ [] → (∀ c ∈ w, p c = true) → (∀ c, s.head? = some c → p c = false) → P s →
      P (w ++ s)) (s : Text) : P s := by
  induction hlen : s.length using Nat.strongRecOn generalizing s with
  | ind len ih =>
      cases s with
      | nil => exact nil
      | cons c rest =>
          by_cases hc : p c = true
          · have hsplit : c :: rest = (c :: rest.takeWhile p) ++ rest.dropWhile p := by
              rw [List.cons_append, List.takeWhile_append_dropWhile]
            have hshorter : (rest.dropWhile p).length < len := by
              have hle := (List.dropWhile_suffix (l := rest) p).length_le
              simp only [List.length_cons] at hlen
              omega
            rw [hsplit]
            refine word _ _ (List.cons_ne_nil _ _) ?_ ?_ (ih _ hshorter _ rfl)
            · exact List.forall_mem_cons.mpr ⟨hc, fun d hd => List.mem_takeWhile_imp hd⟩
            · intro d hd
              have hfirst := List.head?_dropWhile_not p rest
              rwa [hd] at hfirst
          · have hshorter : rest.length < len := by
              simp only [List.length_cons] at hlen
              omega
            exact mark c rest (Bool.eq_false_iff.mpr hc) (ih _ hshorter _ rfl)

theorem occursIn_iff : occursIn y s = true ↔ y <:+: s := by
  induction s with
  | nil => simp [occursIn]
  | cons c rest ih =>
      rw [occursIn, Bool.or_eq_true, ih, List.isPrefixOf_iff_prefix, List.infix_cons_iff]

end Words

end Text

end RoadRules
