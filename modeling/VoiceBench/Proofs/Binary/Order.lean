import Mathlib

/-!
# The order of floats

IEEE comparison is a total preorder on the values that are no NaN: the two zeros are equal and
everything else is ordered as the reals are. In the logical model of floats a comparison unpacks
both operands and compares them constructor by constructor, the finite ones by exponent and then
mantissa, the comparison reversed for negative ones. This module names that order as a
lexicographic key (`orderKey`) and proves the comparison to be the comparison of keys
(`compare_eq_orderKey`), so `≤` on singles that are no NaN is reflexive, total and transitive
(`Float32.le_total_of_not_isNaN`, `Float32.le_trans_of_not_isNaN`).

Repacking a value that is no NaN never yields a NaN (`isNaN_unpack_pack`), so the magnitude of a
single that is no NaN is no NaN either (`Float32.isNaN_abs`).
-/

namespace VoiceBench.Binary

open Float.Model UnpackedFloat

/-! ## Comparing unpacked values -/

/-- Where a value stands in the order of the reals: its class (negative infinity, negative,
zero, positive, positive infinity), then its exponent and mantissa, negated for a negative
value. A NaN has the key of zero; no comparison reads it. -/
def orderKey : UnpackedFloat → Int ×ₗ Int ×ₗ Int
  | .infinity .negative => toLex (-2, toLex (0, 0))
  | .finite .negative m e _ => toLex (-1, toLex (-e, -(m : Int)))
  | .zero _ => toLex (0, toLex (0, 0))
  | .notANumber => toLex (0, toLex (0, 0))
  | .finite .positive m e _ => toLex (1, toLex (e, (m : Int)))
  | .infinity .positive => toLex (2, toLex (0, 0))

theorem compare_natCast (m m' : Nat) : compare (m : Int) (m' : Int) = compare m m' := by
  rcases lt_trichotomy m m' with h | rfl | h
  · rw [compare_lt_iff_lt.2 h, compare_lt_iff_lt.2 (by exact_mod_cast h)]
  · simp
  · rw [compare_gt_iff_gt.2 h, compare_gt_iff_gt.2 (by exact_mod_cast h)]

theorem compare_neg_neg (a b : Int) : compare (-a) (-b) = (compare a b).swap := by
  rcases lt_trichotomy a b with h | rfl | h
  · rw [compare_lt_iff_lt.2 h, compare_gt_iff_gt.2 (neg_lt_neg h)]
    rfl
  · simp
  · rw [compare_gt_iff_gt.2 h, compare_lt_iff_lt.2 (neg_lt_neg h)]
    rfl

/-- Two values that are no NaN compare as their keys do. -/
theorem compare_eq_orderKey {a b : UnpackedFloat} (ha : a.isNaN = false) (hb : b.isNaN = false) :
    a.compare b = some (compare (orderKey a) (orderKey b)) := by
  cases a with
  | notANumber => simp [UnpackedFloat.isNaN] at ha
  | infinity s =>
    cases b with
    | notANumber => simp [UnpackedFloat.isNaN] at hb
    | infinity t => cases s <;> cases t <;> decide
    | zero t => cases s <;> rfl
    | finite t m e hm => cases s <;> cases t <;> rfl
  | zero s =>
    cases b with
    | notANumber => simp [UnpackedFloat.isNaN] at hb
    | infinity t => cases t <;> rfl
    | zero t => rfl
    | finite t m e hm => cases t <;> rfl
  | finite s m e hm =>
    cases b with
    | notANumber => simp [UnpackedFloat.isNaN] at hb
    | infinity t => cases s <;> cases t <;> rfl
    | zero t => cases s <;> rfl
    | finite t m' e' hm' =>
      cases s <;> cases t
      · simp [UnpackedFloat.compare, orderKey, Prod.Lex.compare_def, compareLex, compareOn,
          compare_natCast, compare_neg_neg, Ordering.swap_then]
      · rfl
      · rfl
      · simp [UnpackedFloat.compare, orderKey, Prod.Lex.compare_def, compareLex, compareOn,
          compare_natCast]

/-- Two values that are no NaN are `≤` as their keys are. -/
theorem le_iff_orderKey_le {a b : UnpackedFloat} (ha : a.isNaN = false)
    (hb : b.isNaN = false) : a.le b = true ↔ orderKey a ≤ orderKey b := by
  rw [UnpackedFloat.le, compare_eq_orderKey ha hb, Option.any_some, Ordering.isLE_iff_ne_gt,
    compare_gt_iff_gt, not_lt]

/-- Two values that are no NaN are `<` as their keys are. -/
theorem lt_iff_orderKey_lt {a b : UnpackedFloat} (ha : a.isNaN = false)
    (hb : b.isNaN = false) : a.lt b = true ↔ orderKey a < orderKey b := by
  rw [UnpackedFloat.lt, compare_eq_orderKey ha hb, beq_iff_eq, Option.some.injEq,
    compare_lt_iff_lt]

/-! ## Repacking -/

/-- Bits whose exponent field is not all ones encode no NaN. -/
theorem isNaN_unpack_of_exponent {spec : Format} {b : BitVec spec.numBits}
    (h : unpackExponent b ≠ -1#_) : (UnpackedFloat.unpack spec b).isNaN = false := by
  unfold UnpackedFloat.unpack
  simp only [h, if_false]
  split
  · split <;> rfl
  · rfl

/-- Bits whose mantissa field is zero encode no NaN. -/
theorem isNaN_unpack_of_mantissa {spec : Format} {b : BitVec spec.numBits}
    (h : unpackMantissa b = 0#_) : (UnpackedFloat.unpack spec b).isNaN = false := by
  unfold UnpackedFloat.unpack
  simp only [h, if_true]
  split
  · rfl
  · split <;> rfl

/-- The exponent field zero is not all ones. -/
theorem zero_ne_allOnes (spec : Format) : (0 : BitVec spec.exponentBits) ≠ -1#_ := by
  intro h
  rw [BitVec.neg_one_eq_allOnes] at h
  have := congrArg BitVec.toNat h
  have hpow : 2 ≤ 2 ^ spec.exponentBits := Nat.le_self_pow (by have := spec.he; omega) 2
  rw [BitVec.toNat_allOnes, BitVec.ofNat_eq_ofNat, BitVec.toNat_zero] at this
  omega

/-- Packing a value that is no NaN and unpacking it again gives no NaN: packing writes an all-ones
exponent field only for an infinity, whose mantissa field is zero. -/
theorem isNaN_unpack_pack (spec : Format) {u : UnpackedFloat} (hu : u.isNaN = false) :
    (UnpackedFloat.unpack spec (UnpackedFloat.pack spec u)).isNaN = false := by
  cases u with
  | notANumber => simp [UnpackedFloat.isNaN] at hu
  | infinity s => exact isNaN_unpack_of_mantissa (by simp [UnpackedFloat.pack, packedInfinity])
  | zero s => exact isNaN_unpack_of_mantissa (by simp [UnpackedFloat.pack, packedZero])
  | finite s m e hm =>
    simp only [UnpackedFloat.pack]
    split
    · exact isNaN_unpack_of_mantissa (by simp [packedInfinity])
    · rename_i hfits
      split
      · -- a normal value: its biased exponent is below the all-ones field
        refine isNaN_unpack_of_exponent ?_
        rw [unpackExponent_packComponents, BitVec.neg_one_eq_allOnes]
        intro h
        have := congrArg BitVec.toNat h
        simp only [BitVec.toNat_ofNat, BitVec.toNat_allOnes] at this
        rw [Nat.mod_eq_of_lt (by omega)] at this
        omega
      · refine isNaN_unpack_of_exponent ?_
        rw [unpackExponent_packComponents]
        exact zero_ne_allOnes spec

/-! ## Singles -/

namespace Float32

/-- The key of a single in the order of the reals. -/
def key (x : Float32) : Int ×ₗ Int ×ₗ Int := orderKey x.toModel.unpack

variable {x y z : Float32}

/-- Two singles that are no NaN are `≤` as their keys are. -/
theorem le_iff_key_le (hx : x.isNaN = false) (hy : y.isNaN = false) :
    x ≤ y ↔ key x ≤ key y := by
  change decide (x.toModel ≤ y.toModel) = true ↔ _
  rw [decide_eq_true_iff]
  exact le_iff_orderKey_le hx hy

/-- Two singles that are no NaN are `<` as their keys are. -/
theorem lt_iff_key_lt (hx : x.isNaN = false) (hy : y.isNaN = false) :
    x < y ↔ key x < key y := by
  change decide (x.toModel < y.toModel) = true ↔ _
  rw [decide_eq_true_iff]
  exact lt_iff_orderKey_lt hx hy

theorem le_refl_of_not_isNaN (hx : x.isNaN = false) : x ≤ x :=
  (le_iff_key_le hx hx).2 le_rfl

theorem le_total_of_not_isNaN (hx : x.isNaN = false) (hy : y.isNaN = false) : x ≤ y ∨ y ≤ x := by
  rw [le_iff_key_le hx hy, le_iff_key_le hy hx]
  exact le_total _ _

theorem le_trans_of_not_isNaN (hx : x.isNaN = false) (hy : y.isNaN = false)
    (hz : z.isNaN = false) (hxy : x ≤ y) (hyz : y ≤ z) : x ≤ z :=
  (le_iff_key_le hx hz).2 (le_trans ((le_iff_key_le hx hy).1 hxy) ((le_iff_key_le hy hz).1 hyz))

/-- A single that is not `≤` another is above it, when neither is a NaN. -/
theorem lt_of_not_le (hx : x.isNaN = false) (hy : y.isNaN = false) (h : ¬x ≤ y) : y < x := by
  rw [le_iff_key_le hx hy, not_le] at h
  exact (lt_iff_key_lt hy hx).2 h

/-- The magnitude of a single that is no NaN is no NaN. -/
theorem isNaN_abs (hx : x.isNaN = false) : x.abs.isNaN = false := by
  show (UnpackedFloat.unpack _ (UnpackedFloat.pack _ x.toModel.unpack.abs)).isNaN = false
  refine isNaN_unpack_pack _ ?_
  have hx' : x.toModel.unpack.isNaN = false := hx
  cases h : x.toModel.unpack with
  | notANumber => rw [h] at hx'; cases hx'
  | infinity s => rfl
  | zero s => rfl
  | finite s m e hm => rfl

end Float32

end VoiceBench.Binary
