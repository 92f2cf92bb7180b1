import RoadRules.Proofs.Condition.Comparisons
import RoadRules.Proofs.Condition.Marks

set_option autoImplicit false

/-! # Documented conditions

The grammar lists the months first, then the days, then the hours, with one comma between the parts
of a list and none elsewhere. Whether marks are such a listing can be told from their kinds alone,
by the check `tidy`, and the kinds from the tokens. So a condition that is spelled by marks is
documented just when they are tidy (`isDocumented_iff_tidy`). -/

namespace RoadRules.Condition

open Text Calendar

/-! ## The documented order -/

/-- Parts with one comma between neighbours. -/
def listed {τ : Type} (part : τ → Part) : List τ → List Mark
  | [] => []
  | x :: xs => .part (part x) :: xs.flatMap fun y => [.comma, .part (part y)]

/-- What a condition lists. -/
structure Listing where
  months : List (Span Month)
  days : List (Span Weekday)
  times : List ClockRange

namespace Listing

/-- The marks of a listing: the months, then the days, then the hours. -/
def marks (l : Listing) : List Mark :=
  listed .month l.months ++ (listed .day l.days ++ listed .time l.times)

def empty : Listing := ⟨[], [], []⟩

/-- A listing with a part in front of the others of its kind. -/
def add (l : Listing) : Part → Listing
  | .month x => { l with months := x :: l.months }
  | .day x => { l with days := x :: l.days }
  | .time r => { l with times := r :: l.times }

end Listing

/-- **Documented conditions**: comparisons, and months, days and hours in this order. -/
def IsDocumented (s : Text) : Prop :=
  IsComparison s ∨ ∃ l : Listing, l.marks ≠ [] ∧ Spells s (l.marks.flatMap Mark.tokens)

/-! ## Tidy marks -/

/-- The kinds of parts. -/
inductive Kind where
  | month | day | time
deriving DecidableEq

/-- Where parts of a kind stand among the others. -/
def Kind.rank : Kind → Nat
  | month => 0
  | day => 1
  | time => 2

def Part.kind : Part → Kind
  | month _ => .month
  | day _ => .day
  | time _ => .time

def Mark.kind? : Mark → Option Kind
  | comma => none
  | part p => some p.kind

/-- Whether marks may follow a part of the given kind: a comma and a part of the same kind, or a
part of a later kind, and so on. -/
def tidyAfter (k : Kind) : List (Option Kind) → Bool
  | [] => true
  | none :: some j :: rest => decide (j = k) && tidyAfter j rest
  | some j :: rest => decide (k.rank < j.rank) && tidyAfter j rest
  | none :: _ => false

/-- Whether marks are those of a documented condition, by their kinds. -/
def tidy : List (Option Kind) → Bool
  | some k :: rest => tidyAfter k rest
  | _ => false

/-! ## Listings are tidy -/

section Tidy

variable {τ : Type} {f : τ → Part} {k j : Kind}

/-- A list of parts of one kind goes on in its own way. -/
theorem tidyAfter_flatMap (hkind : ∀ x, (f x).kind = k) (xs : List τ)
    (rest : List (Option Kind)) :
    tidyAfter k ((xs.flatMap fun y => [Mark.comma, .part (f y)]).map Mark.kind? ++ rest) =
      tidyAfter k rest := by
  induction xs with
  | nil => rfl
  | cons x xs ih =>
      rw [List.flatMap_cons, List.map_append, List.append_assoc]
      show tidyAfter k (none :: some (f x).kind :: (_ ++ rest)) = _
      rw [hkind x, tidyAfter, ih]
      simp

/-- A list of parts of a later kind may follow, and only parts of kinds that are later still may
follow it. -/
theorem tidyAfter_listed (hkind : ∀ x, (f x).kind = j) (h : k.rank < j.rank) (xs : List τ)
    {rest : List (Option Kind)} (hrest : tidyAfter k rest = true)
    (hrest' : tidyAfter j rest = true) :
    tidyAfter k ((listed f xs).map Mark.kind? ++ rest) = true := by
  cases xs with
  | nil => exact hrest
  | cons x xs =>
      show tidyAfter k (some (f x).kind :: (_ ++ rest)) = true
      rw [hkind x, tidyAfter, tidyAfter_flatMap hkind, hrest']
      simp [h]

theorem tidy_listed (hkind : ∀ x, (f x).kind = k) (x : τ) (xs : List τ)
    (rest : List (Option Kind)) :
    tidy ((listed f (x :: xs)).map Mark.kind? ++ rest) = tidyAfter k rest := by
  show tidyAfter (f x).kind (_ ++ rest) = _
  rw [hkind x]
  exact tidyAfter_flatMap hkind xs rest

/-- **Listings are tidy.** -/
theorem Listing.tidy_marks (l : Listing) (h : l.marks ≠ []) :
    tidy (l.marks.map Mark.kind?) = true := by
  have hmonth : ∀ x, (Part.month x).kind = .month := fun _ => rfl
  have hday : ∀ x, (Part.day x).kind = .day := fun _ => rfl
  have htime : ∀ r, (Part.time r).kind = .time := fun _ => rfl
  have hend : ∀ k : Kind, k.rank < Kind.time.rank →
      tidyAfter k ((listed .time l.times).map Mark.kind? ++ []) = true := fun k hk =>
    tidyAfter_listed htime hk l.times rfl rfl
  rw [marks, List.map_append, List.map_append, ← List.append_nil (List.map _ (listed .time _))]
  -- The first list that is not empty starts the condition, and the later ones may follow it.
  cases hmonths : l.months with
  | cons m ms =>
      rw [tidy_listed hmonth]
      exact tidyAfter_listed hday (by decide) l.days (hend .month (by decide))
        (hend .day (by decide))
  | nil =>
      cases hdays : l.days with
      | cons d ds =>
          show tidy ((listed .day (d :: ds)).map Mark.kind? ++ _) = true
          rw [tidy_listed hday]
          exact hend .day (by decide)
      | nil =>
          cases htimes : l.times with
          | cons t ts =>
              show tidy ((listed .time (t :: ts)).map Mark.kind? ++ []) = true
              rw [tidy_listed htime]
              rfl
          | nil => exact absurd (by simp [marks, listed, hmonths, hdays, htimes]) h

end Tidy

/-! ## Tidy marks are a listing -/

namespace Listing

/-- Whether a listing has nothing that comes before the parts of a kind. -/
def StartsAt (l : Listing) : Kind → Prop
  | .month => True
  | .day => l.months = []
  | .time => l.months = [] ∧ l.days = []

variable {l : Listing} {p q : Part}

theorem add_of_eq (h : q.kind = p.kind) (hl : l.StartsAt q.kind) :
    (l.add q).StartsAt p.kind ∧ ((l.add q).add p).marks = .part p :: .comma :: (l.add q).marks := by
  cases p <;> cases q <;> simp_all [Part.kind, StartsAt, add, marks, listed]

theorem add_of_lt (h : p.kind.rank < q.kind.rank) (hl : l.StartsAt q.kind) :
    (l.add q).StartsAt p.kind ∧ ((l.add q).add p).marks = .part p :: (l.add q).marks := by
  cases p <;> cases q <;> simp_all [Part.kind, Kind.rank, StartsAt, add, marks, listed]

end Listing

/-- Tidy marks after a part are, with it, those of a listing. -/
theorem exists_listing_of_tidyAfter (p : Part) (ms : List Mark)
    (h : tidyAfter p.kind (ms.map Mark.kind?) = true) :
    ∃ l : Listing, l.StartsAt p.kind ∧ (l.add p).marks = .part p :: ms := by
  match ms, h with
  | [], _ => exact ⟨.empty, by cases p <;> simp [Part.kind, Listing.StartsAt, Listing.empty], by
      cases p <;> rfl⟩
  | .comma :: .part q :: rest, h =>
      simp only [List.map_cons, Mark.kind?, tidyAfter, Bool.and_eq_true, decide_eq_true_eq] at h
      obtain ⟨l, hstarts, hmarks⟩ := exists_listing_of_tidyAfter q rest h.2
      obtain ⟨hadd, hadds⟩ := Listing.add_of_eq h.1 hstarts
      exact ⟨l.add q, hadd, by rw [hadds, hmarks]⟩
  | .part q :: rest, h =>
      simp only [List.map_cons, Mark.kind?, tidyAfter, Bool.and_eq_true, decide_eq_true_eq] at h
      obtain ⟨l, hstarts, hmarks⟩ := exists_listing_of_tidyAfter q rest h.2
      obtain ⟨hadd, hadds⟩ := Listing.add_of_lt h.1 hstarts
      exact ⟨l.add q, hadd, by rw [hadds, hmarks]⟩
  | [.comma], h => cases h
  | .comma :: .comma :: rest, h => cases h

/-- **Tidy marks** are those of a listing. -/
theorem tidy_iff (ms : List Mark) :
    tidy (ms.map Mark.kind?) = true ↔ ∃ l : Listing, l.marks ≠ [] ∧ l.marks = ms := by
  constructor
  · intro h
    match ms, h with
    | .part p :: rest, h =>
        obtain ⟨l, -, hmarks⟩ := exists_listing_of_tidyAfter p rest h
        exact ⟨l.add p, by simp [hmarks], hmarks⟩
    | .comma :: _, h => cases h
    | [], h => cases h
  · rintro ⟨l, hne, rfl⟩
    exact l.tidy_marks hne

/-! ## The tokens settle the kinds -/

/-- The kind of part that a time or word begins. -/
def Atom.kind? : Atom → Option Kind
  | time _ => some .time
  | word w =>
    match weekday? w, month? w with
    | some _, _ => some .day
    | none, some _ => some .month
    | none, none => none

/-- A part begins with a time or word of its kind, and is that alone or a range. -/
theorem Part.exists_tokens (p : Part) :
    ∃ a, a.kind? = some p.kind ∧
      (p.item.tokens = [.atom a] ∨ ∃ b, p.item.tokens = [.atom a, .dash, .atom b]) := by
  match p with
  | .month (.one m) =>
      exact ⟨.word (NamedCycle.name m), by simp [Atom.kind?, weekday?_month, month?_name, kind],
        Or.inl rfl⟩
  | .month (.range m _ _ n) =>
      exact ⟨.word (NamedCycle.name m), by simp [Atom.kind?, weekday?_month, month?_name, kind],
        Or.inr ⟨.word (NamedCycle.name n), rfl⟩⟩
  | .day (.one d) =>
      exact ⟨.word (NamedCycle.name d), by simp [Atom.kind?, weekday?_name, kind], Or.inl rfl⟩
  | .day (.range d _ _ e) =>
      exact ⟨.word (NamedCycle.name d), by simp [Atom.kind?, weekday?_name, kind],
        Or.inr ⟨.word (NamedCycle.name e), rfl⟩⟩
  | .time r => exact ⟨.time r.start.text, rfl, Or.inr ⟨.time r.stop.text, rfl⟩⟩

/-- The kinds that a list of tokens has: a comma has none. -/
def kindsOf : List Token → List (Option Kind)
  | [] => []
  | .atom a :: .dash :: .atom _ :: rest => a.kind? :: kindsOf rest
  | .atom a :: rest => a.kind? :: kindsOf rest
  | _ :: rest => none :: kindsOf rest

theorem kindsOf_atom {a : Atom} {ts : List Token} (h : ts.head? ≠ some .dash) :
    kindsOf (.atom a :: ts) = a.kind? :: kindsOf ts := by
  cases ts with
  | nil => rfl
  | cons t rest =>
      cases t with
      | dash => exact absurd rfl h
      | atom b => rfl
      | comma => rfl

theorem head?_marks (ms : List Mark) : (ms.flatMap Mark.tokens).head? ≠ some .dash := by
  match ms with
  | [] => simp
  | .comma :: rest => simp [Mark.tokens]
  | .part p :: rest =>
      obtain ⟨a, -, htokens | ⟨b, htokens⟩⟩ := p.exists_tokens
      · simp [Mark.tokens, htokens]
      · simp [Mark.tokens, htokens]

/-- **The kinds of marks** are those of their tokens. -/
theorem kindsOf_marks (ms : List Mark) : kindsOf (ms.flatMap Mark.tokens) = ms.map Mark.kind? := by
  induction ms with
  | nil => rfl
  | cons m rest ih =>
      cases m with
      | comma => exact congrArg (none :: ·) ih
      | part p =>
          obtain ⟨a, ha, htokens | ⟨b, htokens⟩⟩ := p.exists_tokens
          · rw [List.flatMap_cons, Mark.tokens, htokens]
            show kindsOf (.atom a :: rest.flatMap Mark.tokens) = some p.kind :: _
            -- No dash follows: marks do not begin with one.
            rw [kindsOf_atom (head?_marks rest), ih, ha]
          · rw [List.flatMap_cons, Mark.tokens, htokens]
            show a.kind? :: kindsOf (rest.flatMap Mark.tokens) = some p.kind :: _
            rw [ih, ha]

/-! ## Documented conditions are tidy -/

/-- A comparison has an operator, which is no token. -/
theorem IsComparison.not_spells {s : Text} {ts : List Token} (h : IsComparison s) :
    ¬ Spells s ts := by
  intro hspells
  cases h with
  | @intro axis operator name number unit g₁ g₂ g₃ g₄ _ _ _ _ _ _ _ =>
      have hsymbol : ∃ c ∈ Text.ofString operator.symbol, ¬ (isBlank c = true ∨
          isDecimalDigit c = true ∨ c.isAlpha = true ∨ c = ':' ∨ c = '-' ∨ c = ',') := by
        cases operator <;> decide
      obtain ⟨c, hc, hno⟩ := hsymbol
      exact hno (hspells.mem (by simp [hc]))

/-- The tokens of a documented condition are tidy. -/
theorem IsDocumented.tidy {s : Text} {ts : List Token} (h : IsDocumented s) (hts : Spells s ts) :
    tidy (kindsOf ts) = true := by
  rcases h with hcomparison | ⟨l, hne, hspells⟩
  · exact absurd hts hcomparison.not_spells
  · have htokens : ts = l.marks.flatMap Mark.tokens :=
      Except.ok.inj (hts.tokens_eq.symm.trans hspells.tokens_eq)
    rw [htokens, kindsOf_marks]
    exact l.tidy_marks hne

/-- Marks are a documented condition just when they are tidy. -/
theorem isDocumented_iff_tidy {s : Text} {ms : List Mark}
    (h : Spells s (ms.flatMap Mark.tokens)) :
    IsDocumented s ↔ tidy (ms.map Mark.kind?) = true := by
  constructor
  · intro hdocumented
    rw [← kindsOf_marks]
    exact hdocumented.tidy h
  · intro htidy
    obtain ⟨l, hne, rfl⟩ := (tidy_iff ms).mp htidy
    exact Or.inr ⟨l, hne, h⟩

end RoadRules.Condition
