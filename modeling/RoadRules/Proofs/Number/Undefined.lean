import RoadRules.Number.Quantity

set_option autoImplicit false

/-! # Undefined floating-point numbers

Which floating-point numbers are undefined. The number that a numeral stands for is, only if the
numeral says so (`Numeral.isNaN_toFloat`), and a product with a number that is finite and not zero
is, only if the other factor is (`Float.isNaN_mul`). A number that is not undefined is at most zero
or greater. All this is read off the way in which numbers are unpacked and packed again. -/

namespace RoadRules

open Float.Model (Format UnpackedFloat)
open Float.Model.UnpackedFloat (packedInfinity roundWithAccuracy unpackExponent unpackMantissa)

/-! ## Packed and unpacked numbers -/

section Bits

variable {spec : Format}

/-- The number in some bits is undefined just when the exponent is the greatest one and the mantissa
is not zero. -/
theorem isNaN_unpack (b : BitVec spec.numBits) :
    (UnpackedFloat.unpack spec b).isNaN =
      decide (unpackExponent b = -1#_ ∧ unpackMantissa b ≠ 0#_) := by
  delta UnpackedFloat.unpack
  dsimp only
  by_cases hexponent : unpackExponent b = -1#_
  · rw [if_pos hexponent]
    by_cases hmantissa : unpackMantissa b = 0#_
    · -- infinity
      rw [if_pos hmantissa]
      exact (decide_eq_false fun h => h.2 hmantissa).symm
    · -- undefined
      rw [if_neg hmantissa]
      exact (decide_eq_true ⟨hexponent, hmantissa⟩).symm
  · have hdefined : decide (unpackExponent b = -1#_ ∧ unpackMantissa b ≠ 0#_) = false :=
      decide_eq_false fun h => hexponent h.1
    rw [if_neg hexponent, hdefined]
    by_cases hzero : unpackExponent b = 0#_
    · rw [if_pos hzero]
      by_cases hmantissa : unpackMantissa b = 0#_
      · -- zero
        rw [dif_pos hmantissa]
        rfl
      · -- less than normal
        rw [dif_neg hmantissa]
        rfl
    · -- normal
      rw [if_neg hzero]
      rfl

theorem isNaN_unpack_packedInfinity (s : UnpackedFloat.Sign) :
    (UnpackedFloat.unpack spec (packedInfinity spec s)).isNaN = false := by
  rw [isNaN_unpack]
  exact decide_eq_false fun h => h.2 UnpackedFloat.unpackMantissa_packComponents

/-- Bits whose exponent is below the greatest one are defined. -/
theorem isNaN_unpack_packComponents {s : UnpackedFloat.Sign} {k : Nat}
    {m : BitVec spec.mantissaBitsWithoutImplicit}
    (h : k < (-1#_ : BitVec spec.exponentBits).toNat) :
    (UnpackedFloat.unpack spec
      (UnpackedFloat.packComponents spec s (BitVec.ofNat _ k) m)).isNaN = false := by
  have hexponent : BitVec.ofNat spec.exponentBits k ≠ -1#_ := by
    intro heq
    have hval := congrArg BitVec.toNat heq
    rw [BitVec.toNat_ofNat] at hval
    exact Nat.ne_of_lt (Nat.lt_of_le_of_lt (Nat.mod_le k _) h) hval
  rw [isNaN_unpack, UnpackedFloat.unpackExponent_packComponents]
  exact decide_eq_false fun h => hexponent h.1

end Bits

/-- **Packing** makes no number undefined, and no undefined number defined. -/
theorem isNaN_unpack_pack (u : UnpackedFloat) : (Float.Model.pack u).unpack.isNaN = u.isNaN := by
  show (UnpackedFloat.unpack Format.binary64 (u.pack Format.binary64)).isNaN = u.isNaN
  cases u with
  | notANumber => decide +kernel
  | infinity s => exact isNaN_unpack_packedInfinity s
  | zero s => exact isNaN_unpack_packComponents (by decide)
  | finite s m e hm =>
      delta UnpackedFloat.pack
      dsimp only
      refine iteInduction
        (motive := fun b => (UnpackedFloat.unpack Format.binary64 b).isNaN = false)
        (fun _ => isNaN_unpack_packedInfinity s) fun hsmall => ?_
      refine iteInduction
        (motive := fun b => (UnpackedFloat.unpack Format.binary64 b).isNaN = false)
        (fun _ => ?_) fun _ => isNaN_unpack_packComponents (by decide)
      refine isNaN_unpack_packComponents ?_
      rw [BitVec.neg_one_eq_allOnes, BitVec.toNat_allOnes]
      exact Nat.lt_sub_of_add_lt (Nat.lt_of_not_le hsmall)

/-! ## Arithmetic -/

/-- Whether a number is finite and not zero. -/
def isNonzero : UnpackedFloat → Bool
  | .finite .. => true
  | .infinity _ | .notANumber | .zero _ => false

section Unpacked

variable {spec : Format} {a c : UnpackedFloat}

/-- An alternative of numbers that are defined is defined. -/
theorem isNaN_ite {p : Prop} [Decidable p] (ha : a.isNaN = false) (hc : c.isNaN = false) :
    (if p then a else c).isNaN = false := by
  by_cases h : p
  · rw [if_pos h]
    exact ha
  · rw [if_neg h]
    exact hc

theorem isNaN_dite {p : Prop} [Decidable p] {a : p → UnpackedFloat} {b : ¬p → UnpackedFloat}
    (ha : ∀ h, (a h).isNaN = false) (hb : ∀ h, (b h).isNaN = false) :
    (dite p a b).isNaN = false := by
  by_cases h : p
  · rw [dif_pos h]
    exact ha h
  · rw [dif_neg h]
    exact hb h

/-- Rounding gives a number that is defined. -/
theorem isNaN_roundWithAccuracy (s : UnpackedFloat.Sign) (m : Nat) (e : Int)
    (accuracy : UnpackedFloat.Accuracy) :
    (roundWithAccuracy spec s m e accuracy).isNaN = false := by
  delta roundWithAccuracy
  exact isNaN_dite (fun _ => rfl) fun _ => rfl

theorem isNaN_mul_unpacked (hc : isNonzero c = true) :
    (UnpackedFloat.mul spec a c).isNaN = a.isNaN := by
  cases c with
  | finite =>
      cases a with
      | finite => exact isNaN_roundWithAccuracy ..
      | infinity | notANumber | zero => rfl
  | infinity | notANumber | zero => cases hc

theorem isNaN_div_unpacked (hc : isNonzero c = true) :
    (UnpackedFloat.div spec a c).isNaN = a.isNaN := by
  cases c with
  | finite =>
      cases a with
      | finite => exact isNaN_roundWithAccuracy ..
      | infinity | notANumber | zero => rfl
  | infinity | notANumber | zero => cases hc

theorem isNaN_ofScientific_unpacked (m : Nat) (e : Int) :
    (UnpackedFloat.ofScientific spec m e).isNaN = false := by
  delta UnpackedFloat.ofScientific
  refine isNaN_dite (fun _ => rfl) fun _ => ?_
  refine isNaN_ite rfl (isNaN_ite rfl (isNaN_ite ?_ ?_))
  · exact isNaN_mul_unpacked rfl
  · exact isNaN_div_unpacked rfl

theorem isNaN_ofNat_unpacked (n : Nat) : (UnpackedFloat.ofNat spec n).isNaN = false := by
  show (UnpackedFloat.normalize spec (n : Int) 0 .positive).isNaN = false
  unfold UnpackedFloat.normalize
  split
  · exact isNaN_roundWithAccuracy ..
  · rfl
  · exact isNaN_roundWithAccuracy ..

end Unpacked

/-- **A product** with a number that is finite and not zero is undefined just when the other factor
is. -/
theorem Float.isNaN_mul {a c : Float} (hc : isNonzero c.toModel.unpack = true) :
    (a * c).isNaN = a.isNaN :=
  (isNaN_unpack_pack _).trans (isNaN_mul_unpacked hc)

theorem Float.isNaN_div {a c : Float} (hc : isNonzero c.toModel.unpack = true) :
    (a / c).isNaN = a.isNaN :=
  (isNaN_unpack_pack _).trans (isNaN_div_unpacked hc)

theorem Float.isNaN_neg (a : Float) : (-a).isNaN = a.isNaN := by
  refine (isNaN_unpack_pack _).trans ?_
  show a.toModel.unpack.neg.isNaN = a.toModel.unpack.isNaN
  cases a.toModel.unpack <;> rfl

/-- The powers of ten that are represented exactly are finite and not zero. -/
theorem isNonzero_powersOfTen : ∀ p ∈ Float.exactlyRepresentablePowersOfTen.toList,
    isNonzero p.toModel.unpack = true := by
  decide +kernel

/-- A decimal stands for a number that is defined. -/
theorem Float.isNaN_ofScientific (m : Nat) (negative : Bool) (e : Nat) :
    (Float.ofScientific m negative e).isNaN = false := by
  have hnat : m.toUInt64.toFloat.isNaN = false :=
    (isNaN_unpack_pack _).trans (isNaN_ofNat_unpacked _)
  unfold Float.ofScientific
  split
  · rename_i h
    have hpower := isNonzero_powersOfTen _ (Array.getElem_mem_toList
      (show e < Float.exactlyRepresentablePowersOfTen.size from Nat.lt_succ_of_le h.2))
    dsimp only
    split
    · exact (isNaN_div hpower).trans hnat
    · exact (isNaN_mul hpower).trans hnat
  · exact (isNaN_unpack_pack _).trans (isNaN_ofScientific_unpacked _ _)

theorem Decimal.isNaN_toFloat (d : Decimal) : d.toFloat.isNaN = false := by
  have hsign : ∀ x : Float, x.isNaN = false → (if d.negative then -x else x).isNaN = false := by
    intro x hx
    split
    · exact (Float.isNaN_neg x).trans hx
    · exact hx
  unfold Decimal.toFloat
  dsimp only
  refine hsign _ ?_
  split
  · decide +kernel
  · split
    · decide +kernel
    · split
      · decide +kernel
      · exact Float.isNaN_ofScientific _ _ _

/-- **The number that a numeral stands for** is undefined just when the numeral is. -/
theorem Numeral.isNaN_toFloat (n : Numeral) : n.toFloat.isNaN = true ↔ n = .undefined := by
  cases n with
  | finite d =>
      have hdefined : (Numeral.finite d).toFloat.isNaN = false := Decimal.isNaN_toFloat d
      rw [hdefined]
      exact ⟨nofun, nofun⟩
  | infinite negative => cases negative <;> decide +kernel
  | undefined => decide +kernel

/-! ## Order -/

theorem Float.le_iff {a b : Float} : a ≤ b ↔ a.toModel.unpack.le b.toModel.unpack = true :=
  decide_eq_true_iff

theorem Float.lt_iff {a b : Float} : a < b ↔ a.toModel.unpack.lt b.toModel.unpack = true :=
  decide_eq_true_iff

theorem Float.unpack_zero : (Quantity.zero : Float).toModel.unpack = .zero .positive := by
  rfl

/-- **A number that is not at most zero** is positive unless it is undefined. -/
theorem Float.pos_iff_of_not_le {v : Float} (h : ¬ v ≤ Quantity.zero) :
    Quantity.zero < v ↔ v.isNaN = false := by
  rw [le_iff, unpack_zero] at h
  rw [lt_iff, unpack_zero]
  show _ ↔ v.toModel.unpack.isNaN = false
  revert h
  cases v.toModel.unpack with
  | notANumber => decide
  | infinity s => cases s <;> decide
  | zero s => cases s <;> decide
  | finite s m e hm =>
      intro h
      cases s with
      | positive => exact ⟨fun _ => rfl, fun _ => rfl⟩
      | negative => exact absurd rfl h

end RoadRules
