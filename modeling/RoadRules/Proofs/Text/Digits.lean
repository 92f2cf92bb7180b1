import Mathlib.Algebra.Group.Nat.Defs
import Mathlib.Data.List.Basic
import RoadRules.Proofs.Text.Classes

set_option autoImplicit false

/-! # Written numbers

A number that is written in ASCII digits, with or without zeros in front, is read back. Digits are
neither blanks nor surrogates. -/

namespace RoadRules.Text

variable {n w : Nat} {c : CodePoint} {s : Text}

theorem isDigit_of_mem_naturalText (h : c ∈ naturalText n) : c.isDigit = true := by
  obtain ⟨d, hd, rfl⟩ := List.mem_map.mp h
  exact Nat.isDigit_of_mem_toDigits (by decide) (by decide) hd

theorem isDigit_of_mem_paddedDigits (h : c ∈ paddedDigits w n) : c.isDigit = true := by
  rcases List.mem_append.mp h with hzero | hdigit
  · rw [List.eq_of_mem_replicate hzero]
    rfl
  · exact isDigit_of_mem_naturalText hdigit

theorem length_naturalText_pos : 0 < (naturalText n).length := by
  unfold naturalText
  rw [List.length_map]
  exact Nat.length_toDigits_pos

theorem length_naturalText_le_iff (hw : 0 < w) : (naturalText n).length ≤ w ↔ n < 10 ^ w := by
  unfold naturalText
  rw [List.length_map, Nat.length_toDigits_le_iff (by decide) hw]

/-- A number that fits into a width is written with as many digits. -/
theorem length_paddedDigits (hw : 0 < w) (hn : n < 10 ^ w) : (paddedDigits w n).length = w := by
  have hle := (length_naturalText_le_iff hw).mpr hn
  unfold paddedDigits
  rw [List.length_append, List.length_replicate]
  omega

/-- Two digits are digits up to a width of two. -/
theorem twoDigits_eq (n : Nat) : twoDigits n = paddedDigits 2 n := by
  have hpos : 0 < (naturalText n).length := length_naturalText_pos
  have hone : (naturalText n).length ≤ 1 ↔ n < 10 := length_naturalText_le_iff (by decide)
  unfold twoDigits paddedDigits
  split
  · have hmissing : 2 - (naturalText n).length = 1 := by omega
    rw [hmissing]
    rfl
  · have hmissing : 2 - (naturalText n).length = 0 := by omega
    rw [hmissing]
    rfl

theorem isDigit_of_mem_twoDigits (h : c ∈ twoDigits n) : c.isDigit = true := by
  rw [twoDigits_eq] at h
  exact isDigit_of_mem_paddedDigits h

theorem paddedDigits_ne_nil (w n : Nat) : paddedDigits w n ≠ [] :=
  List.append_ne_nil_of_right_ne_nil _ (List.length_pos_iff.mp length_naturalText_pos)

theorem twoDigits_ne_nil (n : Nat) : twoDigits n ≠ [] := by
  rw [twoDigits_eq]
  exact paddedDigits_ne_nil 2 n

/-- Two digits, one by one. -/
theorem exists_twoDigits_eq (hn : n < 100) :
    ∃ a b : CodePoint, twoDigits n = [a, b] ∧ a.isDigit = true ∧ b.isDigit = true := by
  have hlength : (twoDigits n).length = 2 := by
    rw [twoDigits_eq]
    exact length_paddedDigits (by decide) hn
  obtain ⟨a, b, htext⟩ := List.length_eq_two.mp hlength
  have hdigit : ∀ c ∈ [a, b], c.isDigit = true := fun c hc =>
    isDigit_of_mem_twoDigits (htext ▸ hc)
  exact ⟨a, b, htext, hdigit a (by simp), hdigit b (by simp)⟩

/-! ## Values -/

/-- The values of the digits of a written number make the number. -/
theorem digitsValue_paddedDigits (w n : Nat) :
    digitsValue ((paddedDigits w n).map fun c => c.code - 48) = n := by
  have hfold : ∀ (l : List Char) (start : Nat),
      ((l.map CodePoint.char).map fun c => c.code - 48).foldl (fun n d => 10 * n + d) start =
        Nat.ofDigitChars 10 l start := by
    intro l
    induction l with
    | nil => intro start; simp
    | cons d rest ih =>
        intro start
        rw [Nat.ofDigitChars_cons, ← ih]
        rfl
  have hchars : paddedDigits w n =
      (List.replicate (w - (naturalText n).length) '0' ++ Nat.toDigits 10 n).map .char := by
    unfold paddedDigits naturalText
    rw [List.map_append, List.map_replicate]
  unfold digitsValue
  rw [hchars, hfold, Nat.ofDigitChars_append, Nat.ofDigitChars_replicate_zero, Nat.mul_zero,
    Nat.ofDigitChars_ten_toDigits]

theorem digitValue?_of_isDigit (h : c.isDigit = true) : digitValue? c = some (c.code - 48) := by
  have hcode := CodePoint.code_of_isDigit h
  unfold digitValue?
  rw [if_pos (by omega), if_pos h]

theorem natural?_of_isDigit (hne : s ≠ []) (h : ∀ c ∈ s, c.isDigit = true) :
    natural? s = some (digitsValue (s.map fun c => c.code - 48)) := by
  have hvalues : s.mapM digitValue? = some (s.map fun c => c.code - 48) := by
    clear hne
    induction s with
    | nil => rfl
    | cons c rest ih =>
        obtain ⟨hc, hrest⟩ := List.forall_mem_cons.mp h
        simp [digitValue?_of_isDigit hc, ih hrest]
  unfold natural?
  rw [hvalues, if_neg (by simpa using hne)]
  rfl

/-- **A written number is read back.** -/
theorem natural?_paddedDigits (w n : Nat) : natural? (paddedDigits w n) = some n := by
  rw [natural?_of_isDigit (paddedDigits_ne_nil w n) fun c => isDigit_of_mem_paddedDigits,
    digitsValue_paddedDigits]

theorem natural?_twoDigits (n : Nat) : natural? (twoDigits n) = some n := by
  rw [twoDigits_eq]
  exact natural?_paddedDigits 2 n

/-! ## Blanks and surrogates -/

theorem not_isBlank_of_isDigit (h : c.isDigit = true) : isBlank c = false :=
  not_isBlank_of_isDecimalDigit (isDecimalDigit_of_isDigit h)

theorem hasSurrogate_cons (c : CodePoint) (s : Text) :
    hasSurrogate (c :: s) = (c.isSurrogate || s.hasSurrogate) := List.any_cons

theorem hasSurrogate_append (s t : Text) :
    (s ++ t).hasSurrogate = (s.hasSurrogate || t.hasSurrogate) := List.any_append

/-- Digits are no surrogates. -/
theorem hasSurrogate_of_isDigit (h : ∀ c ∈ s, c.isDigit = true) : s.hasSurrogate = false := by
  refine List.any_eq_false.mpr fun c hc => ?_
  have hdigit := h c hc
  cases c with
  | char c => exact Bool.false_ne_true
  | surrogate place => cases hdigit

theorem hasSurrogate_paddedDigits (w n : Nat) : (paddedDigits w n).hasSurrogate = false :=
  hasSurrogate_of_isDigit fun _ => isDigit_of_mem_paddedDigits

theorem hasSurrogate_twoDigits (n : Nat) : (twoDigits n).hasSurrogate = false :=
  hasSurrogate_of_isDigit fun _ => isDigit_of_mem_twoDigits

end RoadRules.Text
