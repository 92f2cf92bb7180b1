import RoadRules.Proofs.Text.Replaced
import RoadRules.Proofs.Text.Words

set_option autoImplicit false

/-! # Removing parts of a text

A part that stands in a text only at its end is removed from there, and the rest of the text is left
as it is. Here the parts are words that end in a character which they have nowhere else, such as the
units of speed: such a part cannot begin in one part of a text and end in another one. -/

namespace RoadRules.Text

variable {c : CodePoint} {s t part : Text}

/-- A part that ends in a character which a text lacks does not reach into that text. -/
theorem infix_of_append_of_last (ht : c ∉ t) (h : part ++ [c] <:+: s ++ t) :
    part ++ [c] <:+: s := by
  obtain ⟨before, after, h⟩ := h
  have heq : before ++ part ++ c :: after = s ++ t := by simpa using h
  rcases List.append_eq_append_iff.mp heq with ⟨middle, rfl, hmiddle⟩ | ⟨middle, -, rfl⟩
  · cases middle with
    | nil =>
        rw [List.nil_append] at hmiddle
        exact absurd (hmiddle ▸ List.mem_cons_self) ht
    | cons d rest =>
        obtain ⟨rfl, -⟩ := List.cons.inj hmiddle
        exact ⟨before, rest, by simp⟩
  · exact absurd (List.mem_append_right _ List.mem_cons_self) ht

/-- **A part at the end** of a text is removed if it does not occur before. -/
theorem removeAll_append (hc : c ∉ part) (h : ¬ part ++ [c] <:+: s) :
    removeAll (part ++ [c]) (s ++ (part ++ [c])) = s := by
  unfold removeAll
  induction s with
  | nil =>
      have hself : replaceAll (part ++ [c]) [] (part ++ [c] ++ []) = [] ++ replaceAll _ [] [] :=
        replaceAll_append (List.concat_ne_nil c part)
      rwa [List.append_nil] at hself
  | cons d rest ih =>
      have hrest : ¬ part ++ [c] <:+: rest := fun hwithin =>
        h (hwithin.trans (List.suffix_cons d rest).isInfix)
      have hno : ¬ (part ++ [c]).isPrefixOf (d :: (rest ++ (part ++ [c]))) = true := by
        intro htrue
        have hstart := List.isPrefixOf_iff_prefix.mp htrue
        have hshort : part ++ [c] <+: (d :: rest) ++ part :=
          List.prefix_of_prefix_length_le hstart ⟨[c], by simp⟩ (by simp)
        exact h (infix_of_append_of_last hc hshort.isInfix)
      rw [List.cons_append, replaceAll_cons hno, ih hrest]

end RoadRules.Text
