import RoadRules.Proofs.Number.Rational

set_option autoImplicit false

/-! # The rules of signs

What is known about the sign of a product and of a quotient when quantities may also be infinite or
undefined, as a setting may be: the product of zero and an infinity is undefined, and so is all that
is made of an undefined quantity, which is not even at most itself. Rational numbers obey these
rules, and so do rational numbers with two infinities and an undefined number, `Extended`. -/

namespace RoadRules

/-- **Quantities that obey the rules of signs.** -/
class SignedQuantity (α : Type) [Quantity α] : Prop where
  -- A product with a positive quantity has the sign of the other factor.
  nonneg_mul_iff : ∀ {a k : α}, Quantity.zero < k → (Quantity.zero ≤ a * k ↔
    Quantity.zero ≤ a ∧ ¬ (Quantity.isInfinite k = true ∧ Quantity.isZero a = true))
  -- It is zero only if the other factor is.
  isZero_mul_iff : ∀ {a k : α}, Quantity.zero < k → (Quantity.isZero (a * k) = true ↔
    Quantity.isZero a = true ∧ Quantity.isInfinite k = false)
  -- A quotient is negative if the divisor is, unless it is zero.
  nonneg_div_iff : ∀ {a b : α}, Quantity.zero ≤ a → Quantity.isInfinite a = false →
    Quantity.isZero b = false → (Quantity.zero ≤ a / b ↔
      b ≤ b ∧ ¬ (b < Quantity.zero ∧ Quantity.isInfinite b = false ∧ Quantity.zero < a))
  -- A quotient of a quantity that is greater than the divisor is positive.
  pos_div : ∀ {a b : α}, ¬ b ≤ Quantity.zero → b < a → Quantity.isInfinite a = false →
    Quantity.zero < a / b ∧ Quantity.isInfinite (a / b) = false
  -- Natural numbers are not infinite.
  isInfinite_ofNat : ∀ n : Nat, Quantity.isInfinite (Quantity.ofNat n : α) = false

theorem Quantity.isZero_rat {q : ℚ} : Quantity.isZero q = true ↔ q = 0 := by
  unfold Quantity.isZero
  rw [Bool.and_eq_true, decide_eq_true_eq, decide_eq_true_eq]
  exact le_antisymm_iff.symm

theorem Quantity.div_nonneg_rat {p q : ℚ} (hp : 0 ≤ p) (hq : q ≠ 0) :
    0 ≤ p / q ↔ (q < 0 → p ≤ 0) := by
  rcases hq.lt_or_gt with hneg | hpos
  · simp [hneg, div_nonneg_iff, hp, hneg.le, hneg.not_ge]
  · simp [hpos.not_gt, div_nonneg hp hpos.le]

instance : SignedQuantity ℚ where
  nonneg_mul_iff {a k} hk := by
    show 0 ≤ a * k ↔ 0 ≤ a ∧ ¬ (false = true ∧ _)
    simp [mul_nonneg_iff_of_pos_right (show 0 < k from hk)]
  isZero_mul_iff {a k} hk := by
    rw [Quantity.isZero_rat, Quantity.isZero_rat]
    simp [(show 0 < k from hk).ne', show Quantity.isInfinite k = false from rfl]
  nonneg_div_iff {a b} ha _ hb := by
    have hne : b ≠ 0 := fun h => Bool.false_ne_true (hb.symm.trans (Quantity.isZero_rat.mpr h))
    show 0 ≤ a / b ↔ b ≤ b ∧ ¬ (b < 0 ∧ false = false ∧ 0 < a)
    simp [Quantity.div_nonneg_rat ha hne]
  pos_div {a b} hb hlt _ := by
    have hpos : 0 < b := not_le.mp hb
    exact ⟨div_pos (hpos.trans hlt) hpos, rfl⟩
  isInfinite_ofNat _ := rfl

/-! ## Rational numbers with infinities -/

/-- A rational number, an infinity, or the undefined number. -/
inductive Extended where
  | finite (value : ℚ)
  | infinite (negative : Bool)
  | undefined
deriving DecidableEq

namespace Extended

/-- An infinity, of the opposite sign if asked for. -/
def signed (flip negative : Bool) : Extended := infinite (flip != negative)

def neg : Extended → Extended
  | finite p => finite (-p)
  | infinite n => infinite !n
  | undefined => undefined

def add : Extended → Extended → Extended
  | finite p, finite q => finite (p + q)
  | infinite m, infinite n => if m = n then infinite m else undefined
  | infinite n, finite _ | finite _, infinite n => infinite n
  | undefined, _ | _, undefined => undefined

def mul : Extended → Extended → Extended
  | finite p, finite q => finite (p * q)
  | infinite m, infinite n => signed m n
  | infinite n, finite p | finite p, infinite n =>
    if p = 0 then undefined else signed (decide (p < 0)) n
  | undefined, _ | _, undefined => undefined

/-- The quotient of two numbers. There is one zero only, so that what is divided by it has the sign
that the other number has. -/
def div : Extended → Extended → Extended
  | finite p, finite q =>
    if q = 0 then if p = 0 then undefined else infinite (decide (p < 0)) else finite (p / q)
  | finite _, infinite _ => finite 0
  | infinite n, finite q => signed (decide (q < 0)) n
  | infinite _, infinite _ => undefined
  | undefined, _ | _, undefined => undefined

def isLess : Extended → Extended → Bool
  | finite p, finite q => decide (p < q)
  | infinite m, infinite n => m && !n
  | infinite m, finite _ => m
  | finite _, infinite n => !n
  | undefined, _ | _, undefined => false

def isAtMost : Extended → Extended → Bool
  | finite p, finite q => decide (p ≤ q)
  | infinite m, infinite n => m || !n
  | infinite m, finite _ => m
  | finite _, infinite n => !n
  | undefined, _ | _, undefined => false

def text : Extended → Text
  | finite p => toString p
  | infinite negative => if negative then "-inf" else "inf"
  | undefined => "nan"

instance : Quantity Extended where
  add := add
  sub a b := add a (neg b)
  mul := mul
  div := div
  lt a b := isLess a b = true
  le a b := isAtMost a b = true
  zero := finite 0
  decideLt a b := inferInstanceAs (Decidable (isLess a b = true))
  decideLe a b := inferInstanceAs (Decidable (isAtMost a b = true))
  ofNumeral
    | .finite d => finite d.toRat
    | .infinite negative => infinite negative
    | .undefined => undefined
  isInfinite
    | infinite _ => true
    | finite _ | undefined => false
  isBounded
    | finite _ => true
    | infinite negative => negative
    | undefined => false
  text _ := text
  fixedText _ := text

/-- How far a number is from another one. -/
def gap (a b : Extended) : Extended :=
  match add b (neg a) with
  | finite p => finite |p|
  | infinite _ => infinite false
  | undefined => undefined

instance : Geometry Extended where
  straight a b := add (gap a.x b.x) (gap a.y b.y)
  greatCircle _ _ := .error .outsideDomain
  distanceFrom x y n := add (gap x n.x) (gap y n.y)
  isIndexedBefore _ _ := false

variable {a b k : Extended} {p q : ℚ} {n : Bool}

@[simp] theorem zero_eq : (Quantity.zero : Extended) = finite 0 := rfl

@[simp] theorem finite_le_finite : finite p ≤ finite q ↔ p ≤ q := decide_eq_true_iff

@[simp] theorem finite_lt_finite : finite p < finite q ↔ p < q := decide_eq_true_iff

@[simp] theorem infinite_lt_finite : infinite n < finite q ↔ n = true := Iff.rfl

@[simp] theorem finite_le_infinite : finite p ≤ infinite n ↔ n = false :=
  Bool.not_eq_true' n ▸ Iff.rfl

@[simp] theorem finite_lt_infinite : finite p < infinite n ↔ n = false :=
  Bool.not_eq_true' n ▸ Iff.rfl

@[simp] theorem not_le_undefined : ¬ a ≤ undefined := by
  cases a <;> exact Bool.false_ne_true

@[simp] theorem not_lt_undefined : ¬ a < undefined := by
  cases a <;> exact Bool.false_ne_true

@[simp] theorem not_undefined_lt : ¬ undefined < a := Bool.false_ne_true

@[simp] theorem infinite_le_self : infinite n ≤ infinite n := by
  cases n <;> decide

@[simp] theorem isInfinite_finite : Quantity.isInfinite (finite p) = false := rfl

@[simp] theorem isInfinite_infinite : Quantity.isInfinite (infinite n) = true := rfl

@[simp] theorem isZero_finite : Quantity.isZero (finite p) = true ↔ p = 0 := by
  simpa [Quantity.isZero] using le_antisymm_iff.symm

@[simp] theorem isZero_infinite : Quantity.isZero (infinite n) = false := by
  cases n <;> decide

@[simp] theorem isZero_undefined : Quantity.isZero undefined = false := rfl

/-- A positive number is a rational number or the positive infinity. -/
theorem pos_iff : Quantity.zero < a ↔ (∃ q, 0 < q ∧ a = finite q) ∨ a = infinite false := by
  cases a <;> simp

@[simp] theorem finite_mul_finite : finite p * finite q = finite (p * q) := rfl

@[simp] theorem undefined_mul : undefined * a = undefined := by
  cases a <;> rfl

/-- A positive number keeps the sign of an infinity. -/
theorem infinite_mul (hk : Quantity.zero < k) : infinite n * k = infinite n := by
  rcases pos_iff.mp hk with ⟨q, hq, rfl⟩ | rfl
  · show (if q = 0 then undefined else signed (decide (q < 0)) n) = _
    simp [signed, hq.ne', hq.not_gt]
  · show signed n false = _
    simp [signed]

@[simp] theorem finite_mul_infinity :
    finite p * infinite false = if p = 0 then undefined else infinite (decide (p < 0)) := by
  show (if p = 0 then undefined else signed (decide (p < 0)) false) = _
  simp [signed]

theorem finite_div_finite (hq : q ≠ 0) : finite p / finite q = finite (p / q) :=
  if_neg hq

@[simp] theorem finite_div_infinite : finite p / infinite n = finite 0 := rfl

@[simp] theorem div_undefined : a / undefined = undefined := by
  cases a <;> rfl

/-- **The sign of a product.** -/
theorem nonneg_mul (hk : Quantity.zero < k) : Quantity.zero ≤ a * k ↔
    Quantity.zero ≤ a ∧ ¬ (Quantity.isInfinite k = true ∧ Quantity.isZero a = true) := by
  cases a with
  | infinite n =>
      rw [infinite_mul hk]
      simp
  | undefined => simp
  | finite p =>
      rcases pos_iff.mp hk with ⟨q, hq, rfl⟩ | rfl
      · simp [mul_nonneg_iff_of_pos_right hq]
      · by_cases hp : p = 0 <;> simp [hp]

theorem isZero_mul (hk : Quantity.zero < k) : Quantity.isZero (a * k) = true ↔
    Quantity.isZero a = true ∧ Quantity.isInfinite k = false := by
  cases a with
  | infinite n =>
      rw [infinite_mul hk]
      simp
  | undefined => simp
  | finite p =>
      rcases pos_iff.mp hk with ⟨q, hq, rfl⟩ | rfl
      · simp [hq.ne']
      · by_cases hp : p = 0 <;> simp [hp]

theorem nonneg_div (hp : 0 ≤ p) (hb : Quantity.isZero b = false) :
    Quantity.zero ≤ finite p / b ↔
      b ≤ b ∧ ¬ (b < Quantity.zero ∧ Quantity.isInfinite b = false ∧ 0 < p) := by
  cases b with
  | infinite n => simp
  | undefined => simp
  | finite q =>
      have hq : q ≠ 0 := by
        rintro rfl
        cases hb
      rw [finite_div_finite hq]
      simp [Quantity.div_nonneg_rat hp hq]

theorem pos_div (hb : ¬ b ≤ Quantity.zero) (hlt : b < a) (ha : Quantity.isInfinite a = false) :
    Quantity.zero < a / b ∧ Quantity.isInfinite (a / b) = false := by
  -- Only a rational number lies between zero and another rational number.
  cases a with
  | infinite n => cases ha
  | undefined => exact absurd hlt not_lt_undefined
  | finite p =>
      cases b with
      | infinite n =>
          obtain rfl : n = true := hlt
          exact absurd rfl hb
      | undefined => exact absurd hlt not_undefined_lt
      | finite q =>
          have hq : 0 < q := not_le.mp fun h => hb (finite_le_finite.mpr h)
          have hp : 0 < p := hq.trans (finite_lt_finite.mp hlt)
          rw [finite_div_finite hq.ne']
          exact ⟨finite_lt_finite.mpr (div_pos hp hq), rfl⟩

instance : SignedQuantity Extended where
  nonneg_mul_iff := nonneg_mul
  isZero_mul_iff := isZero_mul
  nonneg_div_iff {a b} ha hfinite hb := by
    cases a with
    | infinite n => cases hfinite
    | undefined => exact absurd ha not_le_undefined
    | finite p => simpa using nonneg_div (finite_le_finite.mp ha) hb
  pos_div := pos_div
  isInfinite_ofNat _ := rfl

end Extended

end RoadRules
