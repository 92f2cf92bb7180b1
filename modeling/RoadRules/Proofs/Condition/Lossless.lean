import RoadRules.Proofs.Condition.Comparisons
import RoadRules.Proofs.Condition.Marks

set_option autoImplicit false

/-! # Nothing is lost between a condition and its items

The tokens of a text are read in rounds. Each round takes something off the text, and what it takes
is white space or the text of the token that it reads. So a text is its tokens with white space
around them (`Spells.exists_gaps`), and the items of a list of tokens are its tokens without the
commas (`Grouped.flatMap_tokens`). -/

namespace RoadRules.Condition

open Text

/-! ## Rounds -/

/-- **One round of reading tokens**: what it reads at the start of a text, and what it leaves. -/
inductive Reads : Text → Option Token → Text → Prop
  | lexeme {c : CodePoint} {rest : Text} {token : Option Token} {n : Nat} :
      Condition.lexeme c rest = .ok (token, n) → Reads (c :: rest) token (rest.drop n)

/-- The rounds in which the tokens of a text are read, until nothing is left of it. -/
inductive Rounds : Text → List Token → Prop
  | done : Rounds [] []
  | round {s rest : Text} {token : Option Token} {ts : List Token} :
      Reads s token rest → Rounds rest ts → Rounds s (token.toList ++ ts)

/-- Whether a text is all that a round may take off: white space if it reads nothing, and else the
text of the token. -/
def IsTaken (taken : Text) : Option Token → Prop
  | none => IsGap taken
  | some t => taken = t.text

section Rounds

variable {s rest : Text} {token : Option Token} {t : Token} {ts : List Token}

theorem Token.IsWritten.text_ne_nil (h : t.IsWritten) : t.text ≠ [] := by
  match t, h with
  | .atom (.time _), h =>
      obtain ⟨a, tail, rfl, -⟩ := IsTime.exists_cons h
      exact List.cons_ne_nil a tail
  | .atom (.word _), h => exact h.1
  | .dash, _ => exact List.cons_ne_nil _ _
  | .comma, _ => exact List.cons_ne_nil _ _

/-- **Every round advances**, and it loses nothing of what it takes off. -/
theorem Reads.exists_taken (h : Reads s token rest) :
    ∃ taken, taken ≠ [] ∧ s = taken ++ rest ∧ IsTaken taken token := by
  obtain ⟨hlexeme⟩ := h
  rename_i c after n
  rcases lexeme_eq_ok hlexeme with ⟨rfl, rfl, hblank⟩ | ⟨t, rfl, hwritten, htext, -⟩
  · have hgap : IsGap [c] := by
      intro d hd
      rw [List.mem_singleton.mp hd]
      exact hblank
    exact ⟨[c], List.cons_ne_nil c [], rfl, hgap⟩
  · exact ⟨t.text, hwritten.text_ne_nil, htext.symm, rfl⟩

/-- A token that ends before a text is read in one round. -/
theorem reads_text (h : t.IsWritten) (hends : t.EndsBefore rest) :
    Reads (t.text ++ rest) (some t) rest := by
  obtain ⟨c, tail, htext, hlexeme⟩ := lexeme_token h hends
  have hreads : Reads (c :: (tail ++ rest)) (some t) ((tail ++ rest).drop tail.length) :=
    .lexeme hlexeme
  rw [List.drop_left] at hreads
  rw [htext]
  exact hreads

theorem Spells.rounds (h : Spells s ts) : Rounds s ts := by
  induction h with
  | nil => exact .done
  | blank hblank _ ih => exact .round (.lexeme (lexeme_blank hblank)) ih
  | token hwritten hends _ ih => exact .round (reads_text hwritten hends) ih

/-- **The tokens of a text** are those of the rounds that leave nothing of it. -/
theorem rounds_iff : Rounds s ts ↔ tokens s = .ok ts := by
  constructor
  · intro h
    induction h with
    | done => rw [tokens]
    | round hreads _ ih =>
        obtain ⟨hlexeme⟩ := hreads
        rw [tokens_cons hlexeme, ih]
        rfl
  · intro h
    exact (tokens_eq_ok_iff.mp h).rounds

end Rounds

/-! ## Tokens and the white space after them -/

/-- Tokens with what follows each of them, as a text. -/
def spaced (parts : List (Token × Text)) : Text := parts.flatMap fun p => p.1.text ++ p.2

/-- **A text with tokens** is white space and then the tokens, with white space after each. -/
theorem Spells.exists_gaps {s : Text} {ts : List Token} (h : Spells s ts) :
    ∃ (first : Text) (parts : List (Token × Text)), IsGap first ∧ (∀ p ∈ parts, IsGap p.2) ∧
      parts.map Prod.fst = ts ∧ s = first ++ spaced parts := by
  induction h with
  | nil => exact ⟨[], [], by simp [IsGap], by simp, rfl, rfl⟩
  | @blank c s ts hc _ ih =>
      obtain ⟨first, parts, hfirst, hparts, htokens, rfl⟩ := ih
      exact ⟨c :: first, parts, List.forall_mem_cons.mpr ⟨hc, hfirst⟩, hparts, htokens, rfl⟩
  | @token t s ts _ _ _ ih =>
      obtain ⟨first, parts, hfirst, hparts, rfl, rfl⟩ := ih
      refine ⟨[], (t, first) :: parts, by simp [IsGap], ?_, rfl, ?_⟩
      · exact List.forall_mem_cons.mpr ⟨hfirst, hparts⟩
      · simp [spaced]

/-! ## Items -/

/-- The tokens at which an item starts and ends. -/
def Item.ends : Item → List Token
  | single a => [.atom a]
  | range a b => [.atom a, .atom b]

/-- No item starts or ends with a dash or a comma. -/
theorem Item.ends_spec (it : Item) : ∀ t ∈ it.ends, t ≠ .dash ∧ t ≠ .comma := by
  intro t ht
  have hatom : ∃ a, t = .atom a := by
    cases it with
    | single a => exact ⟨a, List.mem_singleton.mp ht⟩
    | range a b =>
        rcases List.mem_cons.mp ht with rfl | ht
        · exact ⟨a, rfl⟩
        · exact ⟨b, List.mem_singleton.mp ht⟩
  obtain ⟨a, rfl⟩ := hatom
  exact ⟨nofun, nofun⟩

/-- **The items of a list of tokens**, written out again, are the tokens without the commas. -/
theorem Grouped.flatMap_tokens {ts : List Token} {its : List Item} (h : Grouped ts its) :
    its.flatMap Item.tokens = ts.filter (· ≠ .comma) := by
  induction h with
  | nil => rfl
  | comma _ ih => simpa using ih
  | single _ _ ih => simp [Item.tokens, ih]
  | range _ ih => simp [Item.tokens, ih]

/-! ## Both steps -/

/-- **Reading tokens and forming items lose nothing.** Every round takes a text off that is not
empty and is white space or the token it reads. A text on which this comes to its end is the text of
its tokens, in order, with nothing but white space around them. And the items of a list of tokens
are the tokens again, in order, without the commas, and none starts or ends with a dash or comma. -/
theorem tokens_items_lossless :
    (∀ s token rest, Reads s token rest →
      ∃ taken, taken ≠ [] ∧ s = taken ++ rest ∧ IsTaken taken token) ∧
    (∀ s ts, tokens s = .ok ts →
      Rounds s ts ∧
        ∃ (first : Text) (parts : List (Token × Text)), IsGap first ∧ (∀ p ∈ parts, IsGap p.2) ∧
          parts.map Prod.fst = ts ∧ s = first ++ spaced parts) ∧
    (∀ segment ts its, items segment ts = .ok its →
      its.flatMap Item.tokens = ts.filter (· ≠ .comma) ∧
        ∀ it ∈ its, ∀ t ∈ it.ends, t ≠ .dash ∧ t ≠ .comma) := by
  refine ⟨fun s token rest h => h.exists_taken, ?_, ?_⟩
  · intro s ts h
    exact ⟨rounds_iff.mpr h, (tokens_eq_ok_iff.mp h).exists_gaps⟩
  · intro segment ts its h
    exact ⟨(items_eq_ok_iff.mp h).flatMap_tokens, fun it _ => it.ends_spec⟩

/-- Two days and hours, with a comma and white space at both ends. -/
def eveningText : Text := " Mo - We,20:00-24:00 "

def eveningTokens : List Token :=
  [.atom (.word "Mo"), .dash, .atom (.word "We"), .comma, .atom (.time "20:00"), .dash,
    .atom (.time "24:00")]

def eveningItems : List Item :=
  [.range (.word "Mo") (.word "We"), .range (.time "20:00") (.time "24:00")]

theorem tokens_items_lossless_evening :
    Reads eveningText none (eveningText.drop 1) ∧ tokens eveningText = .ok eveningTokens ∧
      items eveningText eveningTokens = .ok eveningItems ∧
      (∃ taken, taken ≠ [] ∧ eveningText = taken ++ eveningText.drop 1 ∧ IsTaken taken none) ∧
      (∃ (first : Text) (parts : List (Token × Text)), IsGap first ∧ (∀ p ∈ parts, IsGap p.2) ∧
        parts.map Prod.fst = eveningTokens ∧ eveningText = first ++ spaced parts) ∧
      eveningItems.flatMap Item.tokens = eveningTokens.filter (· ≠ .comma) := by
  have hreads : Reads eveningText none (eveningText.drop 1) := .lexeme rfl
  have htokens : tokens eveningText = .ok eveningTokens := by decide +kernel
  have hitems : items eveningText eveningTokens = .ok eveningItems := rfl
  obtain ⟨hround, htext, hitem⟩ := tokens_items_lossless
  exact ⟨hreads, htokens, hitems, hround _ _ _ hreads, (htext _ _ htokens).2,
    (hitem _ _ _ hitems).1⟩

end RoadRules.Condition
