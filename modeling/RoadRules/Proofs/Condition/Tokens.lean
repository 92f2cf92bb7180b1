import RoadRules.Condition.Token
import RoadRules.Proofs.Text.Classes
import RoadRules.Proofs.Text.Parts

set_option autoImplicit false

/-! # What the tokens of a text are

`Spells` says without an algorithm how a text is put together from tokens: white space may stand
anywhere, and a token must not run into the text that follows it. A text has tokens if and only if
it is put together like that, and it has only these (`tokens_eq_ok_iff`). -/

namespace RoadRules.Condition

open Text

/-! ## Written times -/

def IsPair (s : Text) : Prop :=
  ∃ a b, isDecimalDigit a = true ∧ isDecimalDigit b = true ∧ s = [a, b]

/-- Whether a text is one or two decimal digits. -/
def IsHour (s : Text) : Prop := IsPair s ∨ ∃ a, isDecimalDigit a = true ∧ s = [a]

/-- Whether a text is a colon and two decimal digits, or nothing. -/
def IsSeconds (s : Text) : Prop := s = [] ∨ ∃ pair, IsPair pair ∧ s = .char ':' :: pair

/-- Whether a text is an hour and a minute with a colon between them, with or without seconds. -/
def IsTime (s : Text) : Prop :=
  ∃ hour minute seconds, IsHour hour ∧ IsPair minute ∧ IsSeconds seconds ∧
    s = hour ++ .char ':' :: (minute ++ seconds)

section Times

variable {s t rest : Text}

theorem ne_colon_of_isDecimalDigit {c : CodePoint} (h : isDecimalDigit c = true) : c ≠ ':' := by
  rintro rfl
  revert h
  decide

theorem digitPair?_append (h : IsPair s) : digitPair? (s ++ rest) = some s := by
  obtain ⟨a, b, ha, hb, rfl⟩ := h
  simp [digitPair?, ha, hb]

theorem digitPair?_eq_some (h : digitPair? s = some t) : IsPair t ∧ t <+: s := by
  unfold digitPair? at h
  split at h
  · rename_i a b rest
    split at h
    · rename_i hdigits
      cases h
      rw [Bool.and_eq_true] at hdigits
      exact ⟨⟨a, b, hdigits.1, hdigits.2, rfl⟩, rest, rfl⟩
    · cases h
  · cases h

theorem hourColon?_append (h : IsHour s) :
    hourColon? (s ++ .char ':' :: rest) = some (s ++ [.char ':']) := by
  rcases h with ⟨a, b, ha, hb, rfl⟩ | ⟨a, ha, rfl⟩
  · have hne := ne_colon_of_isDecimalDigit hb
    show hourColon? (a :: b :: .char ':' :: rest) = _
    unfold hourColon?
    split
    · rename_i heq
      cases heq
      exact absurd rfl hne
    · rename_i heq
      cases heq
      simp [ha, hb]
    · rename_i hno
      exact absurd rfl (hno a b rest)
  · simp [hourColon?, ha]

theorem hourColon?_eq_some (h : hourColon? s = some t) :
    ∃ hour, IsHour hour ∧ t = hour ++ [.char ':'] ∧ t <+: s := by
  unfold hourColon? at h
  split at h
  · rename_i a rest
    split at h
    · rename_i ha
      cases h
      exact ⟨[a], Or.inr ⟨a, ha, rfl⟩, rfl, rest, rfl⟩
    · cases h
  · rename_i a b rest _
    split at h
    · rename_i hdigits
      cases h
      rw [Bool.and_eq_true] at hdigits
      exact ⟨[a, b], Or.inl ⟨a, b, hdigits.1, hdigits.2, rfl⟩, rfl, rest, rfl⟩
    · cases h
  · cases h

theorem colonPair_append (h : IsSeconds s) (hrest : rest.head? ≠ some (.char ':')) :
    colonPair (s ++ rest) = s := by
  rcases h with rfl | ⟨pair, hpair, rfl⟩
  · rw [List.nil_append]
    unfold colonPair
    split
    · exact absurd rfl hrest
    · rfl
  · simp [colonPair, digitPair?_append hpair]

theorem colonPair_spec (s : Text) : IsSeconds (colonPair s) ∧ colonPair s <+: s := by
  unfold colonPair
  split
  · rename_i rest
    split
    · rename_i pair hpair
      obtain ⟨h, hprefix⟩ := digitPair?_eq_some hpair
      exact ⟨Or.inr ⟨pair, h, rfl⟩, List.cons_prefix_cons.mpr ⟨rfl, hprefix⟩⟩
    · exact ⟨Or.inl rfl, List.nil_prefix⟩
  · exact ⟨Or.inl rfl, List.nil_prefix⟩

/-- After an hour and a minute the seconds are read too, if there are any. -/
theorem leadingTime?_minute {hour minute : Text} (hhour : IsHour hour) (hminute : IsPair minute)
    (rest : Text) :
    leadingTime? (hour ++ .char ':' :: (minute ++ rest)) =
      some (hour ++ .char ':' :: (minute ++ colonPair rest)) := by
  have hafter : (hour ++ .char ':' :: (minute ++ rest)).drop
      (hour ++ [CodePoint.char ':']).length = minute ++ rest := by simp
  have hassoc : hour ++ .char ':' :: (minute ++ rest) =
      hour ++ [CodePoint.char ':'] ++ minute ++ rest := by simp
  have hlast : (hour ++ .char ':' :: (minute ++ rest)).drop
      (hour ++ [CodePoint.char ':'] ++ minute).length = rest := by
    rw [hassoc, List.drop_left]
  unfold leadingTime?
  rw [hourColon?_append hhour]
  show (digitPair? (_ : Text)).bind _ = _
  rw [hafter, digitPair?_append hminute]
  show some (hour ++ [CodePoint.char ':'] ++ minute ++ colonPair _) = _
  rw [hlast]
  simp

/-- A written time that no colon follows is read as a whole. -/
theorem leadingTime?_append (h : IsTime s) (hrest : rest.head? ≠ some (.char ':')) :
    leadingTime? (s ++ rest) = some s := by
  obtain ⟨hour, minute, seconds, hhour, hminute, hseconds, rfl⟩ := h
  have htext : hour ++ .char ':' :: (minute ++ seconds) ++ rest =
      hour ++ .char ':' :: (minute ++ (seconds ++ rest)) := by simp
  rw [htext, leadingTime?_minute hhour hminute, colonPair_append hseconds hrest]

/-- A text that begins with a written time begins with one that is read, perhaps a longer one. -/
theorem exists_leadingTime? (h : IsTime s) (rest : Text) :
    ∃ t, leadingTime? (s ++ rest) = some t := by
  obtain ⟨hour, minute, seconds, hhour, hminute, -, rfl⟩ := h
  have htext : hour ++ .char ':' :: (minute ++ seconds) ++ rest =
      hour ++ .char ':' :: (minute ++ (seconds ++ rest)) := by simp
  exact ⟨_, htext ▸ leadingTime?_minute hhour hminute _⟩

/-- What is read as a time is a written time at the start of the text. -/
theorem leadingTime?_eq_some (h : leadingTime? s = some t) : IsTime t ∧ t <+: s := by
  unfold leadingTime? at h
  obtain ⟨first, hfirst, h⟩ := Option.bind_eq_some_iff.mp h
  obtain ⟨minute, hminute, h⟩ := Option.bind_eq_some_iff.mp h
  obtain ⟨hour, hhour, rfl, rest, rfl⟩ := hourColon?_eq_some hfirst
  rw [List.drop_left] at hminute
  obtain ⟨hpair, rest, rfl⟩ := digitPair?_eq_some hminute
  change some (hour ++ [CodePoint.char ':'] ++ minute ++ colonPair _) = some t at h
  rw [← List.append_assoc, List.drop_left] at h
  obtain ⟨hseconds, rest, hrest⟩ := colonPair_spec rest
  cases h
  refine ⟨⟨hour, minute, _, hhour, hpair, hseconds, by simp⟩, rest, ?_⟩
  rw [List.append_assoc, hrest]
  simp

/-- A text is a written time just when it is read as one, -/
theorem isTime_iff : IsTime s ↔ leadingTime? s = some s := by
  constructor
  · intro h
    have hwhole : leadingTime? (s ++ []) = some s := leadingTime?_append h (by simp)
    rwa [List.append_nil] at hwhole
  · exact fun h => (leadingTime?_eq_some h).1

/-- and it begins with one just when one is read. -/
theorem exists_isTime_prefix_iff : (∃ t, IsTime t ∧ t <+: s) ↔ (leadingTime? s).isSome = true := by
  rw [Option.isSome_iff_exists]
  constructor
  · rintro ⟨t, ht, rest, rfl⟩
    exact exists_leadingTime? ht rest
  · rintro ⟨t, ht⟩
    exact ⟨t, leadingTime?_eq_some ht⟩

instance (s : Text) : Decidable (IsTime s) := decidable_of_iff' _ isTime_iff

instance (s : Text) : Decidable (∃ t, IsTime t ∧ t <+: s) :=
  decidable_of_iff' _ exists_isTime_prefix_iff

end Times

/-! ## Putting tokens together -/

/-- Whether a token is written as it has to be. -/
def Token.IsWritten : Token → Prop
  | atom (.time t) => IsTime t
  | atom (.word w) => w ≠ [] ∧ ∀ c ∈ w, c.isAlpha = true
  | dash | comma => True

def Token.EndsBefore (rest : Text) : Token → Prop
  | atom (.time _) => rest.head? ≠ some (.char ':')
  | atom (.word _) => ∀ c, rest.head? = some c → c.isAlpha = false
  | dash | comma => True

/-- **How a text is put together from tokens**, with white space anywhere between them. -/
inductive Spells : Text → List Token → Prop
  | nil : Spells [] []
  -- White space says nothing.
  | blank {c : CodePoint} {s : Text} {ts : List Token} :
      isBlank c = true → Spells s ts → Spells (c :: s) ts
  -- A token does not run into what follows it.
  | token {t : Token} {s : Text} {ts : List Token} :
      t.IsWritten → t.EndsBefore s → Spells s ts → Spells (t.text ++ s) (t :: ts)

section Tokens

variable {s rest gap : Text} {c : CodePoint} {t : Token} {ts : List Token} {n : Nat}

theorem IsTime.exists_cons (h : IsTime s) : ∃ a tail, s = a :: tail ∧ isDecimalDigit a = true := by
  obtain ⟨hour, minute, seconds, hhour, -, -, rfl⟩ := h
  rcases hhour with ⟨a, b, ha, -, rfl⟩ | ⟨a, ha, rfl⟩
  · exact ⟨a, _, rfl, ha⟩
  · exact ⟨a, _, rfl, ha⟩

theorem lexeme_blank (h : isBlank c = true) : lexeme c rest = .ok (none, 0) := by
  have hdash : (c == .char '-') = false := beq_eq_false_iff_ne.mpr (by rintro rfl; revert h; decide)
  have hcomma : (c == .char ',') = false :=
    beq_eq_false_iff_ne.mpr (by rintro rfl; revert h; decide)
  simp [lexeme, h, not_isDecimalDigit_of_isBlank h, not_isAlpha_of_isBlank h, hdash, hcomma]

/-- A token that ends before a text is read as a whole. -/
theorem lexeme_token (h : t.IsWritten) (hends : t.EndsBefore s) :
    ∃ c tail, t.text = c :: tail ∧ lexeme c (tail ++ s) = .ok (some t, tail.length) := by
  match t, h, hends with
  | .atom (.time time), h, hends =>
      obtain ⟨a, tail, rfl, ha⟩ := IsTime.exists_cons h
      refine ⟨a, tail, rfl, ?_⟩
      have hlead : leadingTime? (a :: (tail ++ s)) = some (a :: tail) := leadingTime?_append h hends
      simp [lexeme, ha, hlead]
  | .atom (.word []), h, _ => exact absurd rfl h.1
  | .atom (.word (c :: tail)), h, hends =>
      refine ⟨c, tail, rfl, ?_⟩
      have hc : c.isAlpha = true := h.2 c List.mem_cons_self
      have htail : (tail ++ s).takeWhile CodePoint.isAlpha = tail :=
        takeWhile_append_of_head (fun d hd => h.2 d (List.mem_cons_of_mem _ hd)) hends
      simp [lexeme, not_isDecimalDigit_of_isAlpha hc, hc, htail]
  | .dash, _, _ => exact ⟨.char '-', [], rfl, rfl⟩
  | .comma, _, _ => exact ⟨.char ',', [], rfl, rfl⟩

/-- What is read at the start of a text is white space or a token. -/
theorem lexeme_eq_ok {token : Option Token} (h : lexeme c rest = .ok (token, n)) :
    (token = none ∧ n = 0 ∧ isBlank c = true) ∨
      ∃ t, token = some t ∧ t.IsWritten ∧ t.text ++ rest.drop n = c :: rest ∧
        ∀ w, t = .atom (.word w) → t.EndsBefore (rest.drop n) := by
  unfold lexeme at h
  split at h
  · split at h
    · rename_i time htime
      cases h
      obtain ⟨hwritten, after, hafter⟩ := leadingTime?_eq_some htime
      obtain ⟨a, tail, rfl, -⟩ := hwritten.exists_cons
      cases hafter
      exact Or.inr ⟨_, rfl, hwritten, by simp [Token.text, Atom.text], fun w hw => by cases hw⟩
    · cases h
  · split at h
    · rename_i halpha
      cases h
      refine Or.inr ⟨_, rfl, ⟨by simp, ?_⟩, ?_, ?_⟩
      · intro d hd
        rcases List.mem_cons.mp hd with rfl | hd
        · exact halpha
        · exact List.mem_takeWhile_imp hd
      · rw [drop_length_takeWhile]
        simp [Token.text, Atom.text]
      · intro w _ d hd
        rw [drop_length_takeWhile] at hd
        have hnot := List.head?_dropWhile_not CodePoint.isAlpha rest
        rwa [hd] at hnot
    · split at h
      · rename_i hdash
        cases h
        rw [beq_iff_eq] at hdash
        exact Or.inr ⟨_, rfl, trivial, by rw [hdash]; rfl, fun w hw => by cases hw⟩
      · split at h
        · rename_i hcomma
          cases h
          rw [beq_iff_eq] at hcomma
          exact Or.inr ⟨_, rfl, trivial, by rw [hcomma]; rfl, fun w hw => by cases hw⟩
        · split at h
          · cases h
            exact Or.inl ⟨rfl, rfl, ‹_›⟩
          · cases h

/-- What is read first, and then the tokens of what is left. -/
theorem tokens_cons {token : Option Token} (h : lexeme c rest = .ok (token, n)) :
    tokens (c :: rest) = (tokens (rest.drop n)).map fun ts => token.toList ++ ts := by
  rw [tokens, h]
  show (tokens (rest.drop n) >>= fun ts => pure (token.toList ++ ts)) = _
  cases tokens (rest.drop n) <;> rfl

/-- A text that is put together from tokens has these tokens. -/
theorem Spells.tokens_eq (h : Spells s ts) : tokens s = .ok ts := by
  induction h with
  | nil => rw [tokens]
  | blank hc _ ih =>
      rw [tokens_cons (lexeme_blank hc), List.drop_zero, ih]
      rfl
  | @token t s ts hwritten hends _ ih =>
      obtain ⟨c, tail, htext, hlexeme⟩ := lexeme_token hwritten hends
      rw [htext, List.cons_append, tokens_cons hlexeme, List.drop_left, ih]
      rfl

/-- A text does not begin with a colon if it has tokens. -/
theorem head?_ne_colon (h : tokens s = .ok ts) : s.head? ≠ some (.char ':') := by
  intro hhead
  cases s with
  | nil => cases hhead
  | cons c rest =>
      cases hhead
      rw [tokens] at h
      have hlexeme : lexeme (.char ':') rest =
          .error (.unexpectedCharacter (.char ':' :: rest)) := rfl
      rw [hlexeme] at h
      cases h

/-- What is read first goes in front of the tokens of the rest. -/
theorem Spells.cons_of_lexeme {token : Option Token} (h : lexeme c rest = .ok (token, n))
    (hrest : Spells (rest.drop n) ts) : Spells (c :: rest) (token.toList ++ ts) := by
  rcases lexeme_eq_ok h with ⟨rfl, rfl, hblank⟩ | ⟨t, rfl, hwritten, htext, hword⟩
  · exact .blank hblank hrest
  · rw [← htext]
    refine .token hwritten ?_ hrest
    match t, hword with
    | .atom (.time _), _ => exact head?_ne_colon hrest.tokens_eq
    | .atom (.word w), hword => exact hword w rfl
    | .dash, _ => trivial
    | .comma, _ => trivial

/-- **The tokens of a text** are what it is put together from. -/
theorem tokens_eq_ok_iff : tokens s = .ok ts ↔ Spells s ts := by
  refine ⟨fun h => ?_, Spells.tokens_eq⟩
  -- On the length: what is read first may be of any length.
  induction hlen : s.length using Nat.strongRecOn generalizing s ts with
  | ind len ih =>
      cases s with
      | nil =>
          rw [tokens] at h
          cases h
          exact .nil
      | cons c rest =>
          cases hlexeme : lexeme c rest with
          | error refusal =>
              rw [tokens, hlexeme] at h
              cases h
          | ok read =>
              obtain ⟨token, n⟩ := read
              rw [tokens_cons hlexeme] at h
              cases hrest : tokens (rest.drop n) with
              | error refusal => rw [hrest] at h; cases h
              | ok others =>
                  rw [hrest] at h
                  cases h
                  refine .cons_of_lexeme hlexeme (ih (rest.drop n).length ?_ hrest rfl)
                  simp only [List.length_cons, List.length_drop] at hlen ⊢
                  omega

/-! ## White space around tokens -/

/-- A written time is made of digits and colons. -/
theorem IsTime.mem (h : IsTime s) (hc : c ∈ s) : isDecimalDigit c = true ∨ c = ':' := by
  obtain ⟨hour, minute, seconds, hhour, hminute, hseconds, rfl⟩ := h
  have hpair : ∀ p, IsPair p → c ∈ p → isDecimalDigit c = true := by
    rintro p ⟨a, b, ha, hb, rfl⟩ hc
    simp only [List.mem_cons, List.not_mem_nil, or_false] at hc
    rcases hc with rfl | rfl <;> assumption
  simp only [List.mem_append, List.mem_cons] at hc
  rcases hc with hc | rfl | hc | hc
  · rcases hhour with hhour | ⟨a, ha, rfl⟩
    · exact Or.inl (hpair _ hhour hc)
    · rw [List.mem_singleton.mp hc]
      exact Or.inl ha
  · exact Or.inr rfl
  · exact Or.inl (hpair _ hminute hc)
  · rcases hseconds with rfl | ⟨pair, hpair', rfl⟩
    · cases hc
    · rcases List.mem_cons.mp hc with rfl | hc
      · exact Or.inr rfl
      · exact Or.inl (hpair _ hpair' hc)

theorem Token.IsWritten.mem_text (h : t.IsWritten) (hc : c ∈ t.text) :
    isDecimalDigit c = true ∨ c.isAlpha = true ∨ c = ':' ∨ c = '-' ∨ c = ',' := by
  match t, h with
  | .atom (.time _), h =>
      rcases IsTime.mem h hc with hdigit | rfl
      · exact Or.inl hdigit
      · simp
  | .atom (.word _), h => exact Or.inr (Or.inl (h.2 c hc))
  | .dash, _ =>
      have hdash : c = .char '-' := List.mem_singleton.mp hc
      simp [hdash]
  | .comma, _ =>
      have hcomma : c = .char ',' := List.mem_singleton.mp hc
      simp [hcomma]

theorem Token.IsWritten.not_isBlank (h : t.IsWritten) (hc : c ∈ t.text) : isBlank c = false := by
  rcases h.mem_text hc with hdigit | halpha | rfl | rfl | rfl
  · exact not_isBlank_of_isDecimalDigit hdigit
  · exact not_isBlank_of_isAlpha halpha
  all_goals decide

namespace Spells

/-- The characters that a text with tokens is made of. -/
theorem mem (h : Spells s ts) (hc : c ∈ s) :
    isBlank c = true ∨ isDecimalDigit c = true ∨ c.isAlpha = true ∨ c = ':' ∨ c = '-' ∨
      c = ',' := by
  induction h with
  | nil => cases hc
  | blank hblank _ ih =>
      rcases List.mem_cons.mp hc with rfl | hc
      · exact Or.inl hblank
      · exact ih hc
  | token hwritten _ _ ih =>
      rcases List.mem_append.mp hc with hc | hc
      · exact Or.inr (hwritten.mem_text hc)
      · exact ih hc

/-- White space in front of a text changes nothing. -/
theorem blanks (hgap : ∀ c ∈ gap, isBlank c = true) (h : Spells s ts) : Spells (gap ++ s) ts := by
  induction gap with
  | nil => exact h
  | cons c rest ih =>
      exact .blank (hgap c List.mem_cons_self) (ih fun d hd => hgap d (List.mem_cons_of_mem _ hd))

/-- Without the white space at its start a text has the same tokens. -/
theorem trimStart (h : Spells s ts) : Spells (trimStart s) ts := by
  induction h with
  | nil => exact .nil
  | blank hblank _ ih => simpa [Text.trimStart, hblank] using ih
  | @token t s ts hwritten hends hs _ =>
      obtain ⟨c, tail, htext, -⟩ := lexeme_token hwritten hends
      have hc : isBlank c = false := hwritten.not_isBlank (htext ▸ List.mem_cons_self)
      have hsame : Text.trimStart (t.text ++ s) = t.text ++ s := by
        rw [htext]
        exact trimStart_cons hc
      rw [hsame]
      exact .token hwritten hends hs

/-- Without a blank at its end a text has the same tokens. -/
theorem dropBlank (hblank : isBlank c = true) (h : Spells (s ++ [c]) ts) : Spells s ts := by
  generalize hs : s ++ [c] = whole at h
  induction h generalizing s with
  | nil => simp at hs
  | @blank d rest ts hd hrest ih =>
      cases s with
      | nil =>
          cases hs
          exact hrest
      | cons a s =>
          cases hs
          exact .blank hd (ih rfl)
  | @token t rest ts hwritten hends hrest ih =>
      rcases List.eq_nil_or_concat rest with rfl | ⟨rest, d, rfl⟩
      · -- the last character would belong to the token
        have hmem : c ∈ t.text := by
          rw [List.append_nil] at hs
          rw [← hs]
          simp
        rw [hwritten.not_isBlank hmem] at hblank
        cases hblank
      · rw [List.concat_eq_append, ← List.append_assoc] at hs
        obtain ⟨rfl, hd⟩ := List.append_inj' hs rfl
        cases hd
        refine .token hwritten ?_ (ih List.concat_eq_append.symm)
        cases rest with
        | nil =>
            match t with
            | .atom (.time _) => simp [Token.EndsBefore]
            | .atom (.word _) => simp [Token.EndsBefore]
            | .dash | .comma => trivial
        | cons a rest => exact hends

/-- **Trimming a text does not change its tokens.** -/
theorem trim (h : Spells s ts) : Spells (trim s) ts :=
  trimEnd_induction (P := fun s => Spells s ts) (fun _ _ hc hs => hs.dropBlank hc) h.trimStart

end Spells

end Tokens

end RoadRules.Condition
