import Mathlib
import VoiceBench.Proofs.Binary.Encoding
import VoiceBench.Proofs.Binary.Rounding

/-!
# Products, repacking and truncation of singles

The float arithmetic multiplies two finite values exactly and rounds the product once
(`UnpackedFloat.roundWithAccuracy`): it shifts the significand right to a target exponent,
keeping a round bit and a sticky bit, rounds to nearest with ties to even, and shifts once more
when the rounding carried into a new bit. The shifts divide by powers of two
(`mantissa_shiftRight`) and the rounding of the shifted significand is `roundHalfEven` of the
quotient (`roundedMantissa_shiftRight`), so for singles the rounded product is the library's
`roundAt` at the target exponent, with the fields of a single (`roundWithAccuracy_binary32`).

A finite value with the fields of a single is packed and read back unchanged
(`unpack_pack_binary32`), and converting a positive value to a 64-bit word truncates it and
clamps it, so the word is never above the value (`toUInt64_finite_le`).

Products commute, bit for bit (`single_mul_comm`): both orders multiply the significands and add
the exponents, and the format has a single NaN.

Signs: products of a value with itself, sums of such values and quotients by a positive value
never fall below zero (`NotBelowZero`), and repacking keeps that.
-/

namespace VoiceBench.Binary

open Float.Model UnpackedFloat

/-! ## Shifting a significand right -/

/-- Shifting an exact significand right by `s + 1` bits leaves the quotient, bit `s` as the round
bit and the bits below it as the sticky bit. -/
theorem shiftRight_exact_succ (M s : Nat) :
    ExtendedMantissa.ofMantissaAndAccuracy M .exact >>> (s + 1) =
      ⟨M / 2 ^ (s + 1), decide (M / 2 ^ s % 2 = 1), decide (M % 2 ^ s ≠ 0)⟩ := by
  induction s with
  | zero =>
    change ExtendedMantissa.shiftRightOne ⟨M, false, false⟩ = _
    simp only [ExtendedMantissa.shiftRightOne, ExtendedMantissa.mk.injEq, pow_zero, Nat.div_one,
      Nat.mod_one, ne_eq, not_true_eq_false, decide_false, Bool.or_false, zero_add, pow_one, true_and,
      and_true]
    rw [Bool.eq_iff_iff]
    simp only [bne_iff_ne, ne_eq, decide_eq_true_eq]
    omega
  | succ s ih =>
    change ExtendedMantissa.shiftRightOne (ExtendedMantissa.ofMantissaAndAccuracy M .exact >>> (s + 1)) = _
    rw [ih]
    simp only [ExtendedMantissa.shiftRightOne, ExtendedMantissa.mk.injEq]
    refine ⟨by rw [Nat.div_div_eq_div_mul, ← pow_succ], ?_, ?_⟩
    · rw [Bool.eq_iff_iff]
      simp only [bne_iff_ne, ne_eq, decide_eq_true_eq]
      omega
    · -- the bits below `2 ^ (s + 1)` are bit `s` and the bits below `2 ^ s`
      rw [Bool.eq_iff_iff, Nat.mod_pow_succ]
      simp only [Bool.or_eq_true, decide_eq_true_eq, ne_eq]
      rcases Nat.mod_two_eq_zero_or_one (M / 2 ^ s) with hb | hb <;> rw [hb] <;> omega

theorem mantissa_shiftRight (M s : Nat) :
    (ExtendedMantissa.ofMantissaAndAccuracy M .exact >>> s).mantissa = M / 2 ^ s := by
  rcases s with _ | s
  · change M = M / 2 ^ 0
    simp
  · rw [shiftRight_exact_succ]

/-- Rounding a significand shifted right by `s` bits rounds its quotient by `2 ^ s` to nearest,
ties to even. -/
theorem roundedMantissa_shiftRight (M s : Nat) :
    (ExtendedMantissa.ofMantissaAndAccuracy M .exact >>> s).roundedMantissa =
      roundHalfEven M (2 ^ s) := by
  rcases s with _ | s
  · change ExtendedMantissa.roundedMantissa ⟨M, false, false⟩ = _
    simp [ExtendedMantissa.roundedMantissa, ExtendedMantissa.accuracy, Accuracy.roundToNearestEven,
      roundHalfEven, Nat.mod_one]
  · rw [shiftRight_exact_succ]
    have hr : M % 2 ^ (s + 1) = M % 2 ^ s + 2 ^ s * (M / 2 ^ s % 2) := Nat.mod_pow_succ
    have hlow : M % 2 ^ s < 2 ^ s := Nat.mod_lt _ (by positivity)
    have hpow : 2 ^ (s + 1) = 2 * 2 ^ s := pow_succ' 2 s
    unfold roundHalfEven ExtendedMantissa.roundedMantissa
    simp only
    rw [hr, hpow]
    generalize M / (2 * 2 ^ s) = q
    -- bit `s` and the bits below it decide where the remainder lies against a half
    rcases Nat.mod_two_eq_zero_or_one (M / 2 ^ s) with hb | hb <;> rw [hb] <;>
      by_cases hz : M % 2 ^ s = 0 <;>
      simp only [hz, ExtendedMantissa.accuracy, Accuracy.roundToNearestEven, mul_zero, mul_one,
        add_zero, ne_eq, decide_true, decide_false, not_true_eq_false, not_false_eq_true,
        zero_ne_one, beq_iff_eq] <;>
      split_ifs <;> omega

/-! ## Rounding a product -/

/-- The target exponent of a single: 24 bits below the total exponent, at least the least
exponent. -/
theorem targetExponent_binary32 (x : Int) :
    Format.binary32.targetExponent x = max (x - 24) (-149) := rfl

/-- An exact product `M * 2 ^ E` whose exponent is not above the target exponent is rounded to
the multiple of `2 ^ target` that `roundAt` gives: a zero when that is zero, and otherwise a
finite value with at most 24 bits, 24 unless its exponent is the least. -/
theorem roundWithAccuracy_binary32 (sgn : Sign) {M : Nat} (hM : 0 < M) {E : Int}
    (hE : E ≤ Format.binary32.targetExponent (totalExponent M E)) :
    (roundAt M 1 (Format.binary32.targetExponent (totalExponent M E) - E) = 0 ∧
        roundWithAccuracy .binary32 sgn M E .exact = .zero sgn) ∨
      ∃ m e, ∃ hm : 0 < m, roundWithAccuracy .binary32 sgn M E .exact = .finite sgn m e hm ∧
        m < 2 ^ 24 ∧ -149 ≤ e ∧ (2 ^ 23 ≤ m ∨ e = -149) ∧
        (m : ℚ) * 2 ^ e = roundAt M 1 (Format.binary32.targetExponent (totalExponent M E) - E) *
          2 ^ Format.binary32.targetExponent (totalExponent M E) := by
  rw [targetExponent_binary32] at hE ⊢
  simp only [totalExponent] at hE ⊢
  generalize ht : max ((M.log2 : Int) + 1 + E - 24) (-149) = t at hE ⊢
  obtain ⟨s, hs⟩ : ∃ s : Nat, t - E = s := ⟨(t - E).toNat, by omega⟩
  have hr : roundAt M 1 (t - E) = roundHalfEven M (2 ^ s) := by
    rw [hs, roundAt, if_pos (Int.natCast_nonneg s), Int.toNat_natCast, Nat.one_mul, Nat.pow_eq]
  have hshift : (t - E).toNat = s := by omega
  have hexp : E + (((t - E).toNat : Nat) : Int) = t := by omega
  have hround : (ExtendedMantissa.ofMantissaAndAccuracy M .exact >>> (t - E).toNat).roundedMantissa =
      roundAt M 1 (t - E) := by
    rw [hr, hshift, roundedMantissa_shiftRight]
  have hr24 : roundAt M 1 (t - E) ≤ 2 ^ 24 := by
    refine roundAt_le_two_pow one_pos 24 ?_
    rw [hs, Nat.cast_one, div_one]
    exact_mod_cast (Nat.lt_log2_self.trans_le (Nat.pow_le_pow_right (by norm_num) (by omega))).le
  have hr23 : t = -149 ∨ 2 ^ 23 ≤ roundAt M 1 (t - E) := by
    refine (max_choice ((M.log2 : Int) + 1 + E - 24) (-149)).symm.imp (fun h => ht ▸ h) fun h => ?_
    refine two_pow_le_roundAt one_pos 23 ?_
    rw [hs, Nat.cast_one, div_one]
    have hsl : s + 23 = M.log2 := by omega
    exact_mod_cast hsl ▸ Nat.log2_self_le hM.ne'
  generalize roundAt M 1 (t - E) = r at hr24 hr23 hround ⊢
  have hstep : (r = 2 ^ 24 ∧ (max ((r.log2 : Int) + 1 + t - 24) (-149) - t).toNat = 1) ∨
      (r < 2 ^ 24 ∧ (max ((r.log2 : Int) + 1 + t - 24) (-149) - t).toNat = 0) := by
    rcases hr24.lt_or_eq with hlt | heq
    · right
      refine ⟨hlt, ?_⟩
      have : r.log2 < 24 := by
        rcases Nat.eq_zero_or_pos r with h0 | hpos
        · simp [h0]
        · exact (Nat.log2_lt hpos.ne').2 hlt
      omega
    · left
      refine ⟨heq, ?_⟩
      rw [heq, Nat.log2_two_pow]
      omega
  unfold roundWithAccuracy shiftToTargetExponent shiftToExponent
  simp only [targetExponent_binary32, totalExponent, ht, mantissa_shiftRight, hround, hexp]
  split
  · rename_i hzero
    left
    refine ⟨?_, rfl⟩
    rcases hstep with ⟨h24, hk⟩ | ⟨_, hk⟩ <;> rw [hk] at hzero
    · subst h24
      norm_num at hzero
    · simpa using hzero
  · rename_i hpos
    right
    refine ⟨_, _, Nat.pos_of_ne_zero hpos, rfl, ?_⟩
    rcases hstep with ⟨h24, hk⟩ | ⟨hlt, hk⟩ <;> rw [hk]
    · subst h24
      refine ⟨by norm_num, by omega, Or.inl (by norm_num), ?_⟩
      rw [zpow_add₀ two_ne_zero]
      push_cast
      ring
    · have hpos' : 0 < r := by simpa [hk] using Nat.pos_of_ne_zero hpos
      refine ⟨by simpa using hlt, by omega, ?_, by simp⟩
      rcases hr23 with h | h
      · exact Or.inr (by simpa using h)
      · exact Or.inl (by simpa using h)

/-! ## Repacking -/

/-- The bits packed from a sign, an exponent field and a fraction field. -/
theorem toNat_packComponents_binary32 (s : Sign) (E : BitVec 8) (M : BitVec 23) :
    (packComponents .binary32 s E M).toNat =
      Format.single.signPart (s == .negative) + (E.toNat * 2 ^ 23 + M.toNat) := by
  simp only [packComponents, toNat_append_eq]
  cases s with
  | positive => simp [Sign.toBitVec, Format.signPart]
  | negative =>
    simp [Sign.toBitVec, Format.signPart]
    ring

@[simp] theorem signOf_beq_negative (s : Sign) : signOf (s == .negative) = s := by
  cases s <;> rfl

/-- A finite value whose fields fit a single is packed and read back unchanged. -/
theorem unpack_pack_binary32 (s : Sign) {m : Nat} {e : Int} (hm : 0 < m) (h : SingleFields m e) :
    UnpackedFloat.unpack .binary32 (UnpackedFloat.pack .binary32 (.finite s m e hm)) =
      .finite s m e hm := by
  obtain ⟨hlt, hge, hle, hnorm⟩ := h
  rw [unpack_eq_toModel, Format.ofModel_binary32]
  unfold UnpackedFloat.pack
  have hbias : (Format.binary32.exponentBias : Int) = 127 := rfl
  have hfrac : (Format.binary32.mantissaBitsWithoutImplicit : Int) = 23 := rfl
  simp only [hbias, hfrac]
  rw [if_neg (show ¬2 ^ 8 ≤ (e + 127 + 23).toNat + 1 by omega)]
  have hlog24 : m.log2 < 24 := (Nat.log2_lt hm.ne').2 hlt
  split_ifs with hlog
  · -- the top bit is set: a normal value
    have h23 : 2 ^ 23 ≤ m := by
      have h := Nat.log2_self_le hm.ne'
      rwa [show m.log2 = 23 from by simp only [Format.mantissaBits] at hlog; omega] at h
    rw [toNat_packComponents_binary32, BitVec.toNat_ofNat, BitVec.toNat_ofNat,
      unpack_single_of_fields _ _ _ (by omega) (Nat.mod_lt _ (by norm_num)),
      if_neg (by omega), Unpacked.toModel_finite _ (by omega), signOf_beq_negative]
    congr 1
    · omega
    · omega
  · -- below the normal range: the exponent field is zero
    have h23 : m < 2 ^ 23 := by
      have h := Nat.lt_log2_self (n := m)
      have : m.log2 + 1 ≤ 23 := by simp only [Format.mantissaBits] at hlog; omega
      exact h.trans_le (Nat.pow_le_pow_right (by norm_num) this)
    have he : e = -149 := hnorm.resolve_left (by omega)
    rw [toNat_packComponents_binary32, BitVec.toNat_ofNat, BitVec.toNat_ofNat,
      Nat.mod_eq_of_lt h23, unpack_single_of_fields _ _ _ (by norm_num) h23, if_pos (by omega),
      Unpacked.toModel_finite _ hm, signOf_beq_negative, he]
/-! ## Truncating to a word -/

/-- Truncation keeps the integer part of a positive finite value. -/
theorem roundToInt_positive (m : Nat) (e : Int) :
    roundToInt .positive m e = ((m * 2 ^ e.toNat / 2 ^ (-e).toNat : Nat) : Int) := by
  unfold roundToInt decreaseExponent shiftToExponent
  simp only [mantissa_shiftRight, Sign.apply, Nat.shiftLeft_eq, sub_zero]
  congr 3
  omega

/-- A positive finite value converts to a word no larger than itself. -/
theorem toUInt64_finite_le (m : Nat) (e : Int) (hm : 0 < m) :
    ((UnpackedFloat.finite .positive m e hm).toUInt64.toNat : ℚ) ≤ m * 2 ^ e := by
  have hclamp : ∀ k : Nat, (UInt64.ofNatClamp k).toNat ≤ k := fun k => by
    unfold UInt64.ofNatClamp
    split_ifs with h
    · simp
    · simp only [UInt64.toNat_ofNatLT]
      omega
  have htrunc : ((m * 2 ^ e.toNat / 2 ^ (-e).toNat : Nat) : ℚ) ≤ m * 2 ^ e := by
    refine (Nat.cast_div_le).trans_eq ?_
    push_cast
    rw [← zpow_natCast, ← zpow_natCast, mul_div_assoc, ← zpow_sub₀ two_ne_zero]
    congr 2
    omega
  show ((UInt64.ofNatClamp (roundToInt .positive m e).toNat).toNat : ℚ) ≤ _
  rw [roundToInt_positive, Int.toNat_natCast]
  exact (Nat.cast_le.2 (hclamp _)).trans htrunc

/-! ## Signs -/

/-- A value that is no number below zero: a NaN, a zero of either sign or a positive value. -/
def NotBelowZero : UnpackedFloat → Prop
  | .infinity .negative => False
  | .finite .negative _ _ _ => False
  | _ => True

/-- A positive value: a positive finite value or the positive infinity. -/
def IsPositive : UnpackedFloat → Prop
  | .infinity .positive => True
  | .finite .positive _ _ _ => True
  | _ => False

/-- Rounding a positive value gives a positive value or a positive zero. -/
theorem notBelowZero_roundWithAccuracy (spec : Float.Model.Format) (m : Nat) (e : Int)
    (acc : Accuracy) : NotBelowZero (roundWithAccuracy spec .positive m e acc) := by
  unfold roundWithAccuracy
  rcases shiftToTargetExponent spec m e acc with ⟨em₁, e₁⟩
  rcases shiftToTargetExponent spec em₁.roundedMantissa e₁ .exact with ⟨em₂, e₂⟩
  dsimp only
  split <;> trivial

/-- A value times itself is never below zero: the signs multiply to a positive one. -/
theorem notBelowZero_mul_self (spec : Float.Model.Format) (u : UnpackedFloat) :
    NotBelowZero (UnpackedFloat.mul spec u u) := by
  cases u with
  | notANumber => trivial
  | infinity s => cases s <;> trivial
  | zero s => trivial
  | finite s m e hm =>
    have hs : s * s = .positive := by cases s <;> rfl
    simp only [UnpackedFloat.mul, hs]
    exact notBelowZero_roundWithAccuracy spec _ _ _

/-- Two values that are not below zero add to one that is not: an infinity absorbs the other
summand, and two positive finite values have a positive exact sum. -/
theorem notBelowZero_add (spec : Float.Model.Format) {u v : UnpackedFloat}
    (hu : NotBelowZero u) (hv : NotBelowZero v) : NotBelowZero (UnpackedFloat.add spec u v) := by
  cases u with
  | notANumber => trivial
  | infinity s =>
    cases s
    · cases hu
    · cases v with
      | infinity t => cases t <;> trivial
      | _ => trivial
  | zero s =>
    cases v with
    | zero t =>
      simp only [UnpackedFloat.add]
      split <;> trivial
    | _ => exact hv
  | finite s m e hm =>
    cases s
    · cases hu
    · cases v with
      | notANumber => trivial
      | infinity t => exact hv
      | zero t => trivial
      | finite t m' e' hm' =>
        cases t
        · cases hv
        · -- the exact sum of two positive significands is not below zero
          simp only [UnpackedFloat.add, UnpackedFloat.normalize, Sign.apply]
          split
          · rename_i hlt
            exfalso
            rw [compare_lt_iff_lt] at hlt
            omega
          · trivial
          · exact notBelowZero_roundWithAccuracy spec _ _ _

/-- A value that is not below zero divided by a positive value is not below zero. -/
theorem notBelowZero_div (spec : Float.Model.Format) {u v : UnpackedFloat}
    (hu : NotBelowZero u) (hv : IsPositive v) : NotBelowZero (UnpackedFloat.div spec u v) := by
  cases v with
  | notANumber => cases hv
  | zero t => cases hv
  | infinity t =>
    cases t
    · cases hv
    · cases u with
      | notANumber => trivial
      | infinity s => trivial
      | zero s => trivial
      | finite s m e hm => trivial
  | finite t m' e' hm' =>
    cases t
    · cases hv
    · cases u with
      | notANumber => trivial
      | infinity s =>
        cases s
        · cases hu
        · show NotBelowZero (.infinity .positive)
          trivial
      | zero s => trivial
      | finite s m e hm =>
        cases s
        · cases hu
        · exact notBelowZero_roundWithAccuracy spec _ _ _

/-- Bits whose sign bit is clear encode a value that is not below zero. -/
theorem notBelowZero_unpack {spec : Float.Model.Format} {b : BitVec spec.numBits}
    (h : Sign.ofBitVec (unpackSign b) = .positive) : NotBelowZero (UnpackedFloat.unpack spec b) := by
  unfold UnpackedFloat.unpack
  simp only [h]
  split_ifs <;> trivial

/-- Repacking a value that is not below zero gives one that is not. -/
theorem notBelowZero_unpack_pack (spec : Float.Model.Format) {u : UnpackedFloat}
    (hu : NotBelowZero u) : NotBelowZero (UnpackedFloat.unpack spec (UnpackedFloat.pack spec u)) := by
  cases u with
  | notANumber => rw [UnpackedFloat.pack, unpack_packedNaN]; trivial
  | zero s => rw [UnpackedFloat.pack, unpack_packedZero]; trivial
  | infinity s =>
    cases s
    · cases hu
    · refine notBelowZero_unpack ?_
      simp [UnpackedFloat.pack, packedInfinity, unpackSign_packComponents, Sign.ofBitVec_toBitVec]
  | finite s m e hm =>
    cases s
    · cases hu
    · refine notBelowZero_unpack ?_
      simp only [UnpackedFloat.pack]
      split_ifs <;>
        simp [packedInfinity, unpackSign_packComponents, Sign.ofBitVec_toBitVec]

/-! ## Commuting factors -/

theorem sign_mul_comm (s t : Sign) : s * t = t * s := by
  cases s <;> cases t <;> rfl

/-- The exact product of two values does not depend on their order. -/
theorem unpacked_mul_comm (spec : Float.Model.Format) (u v : UnpackedFloat) :
    UnpackedFloat.mul spec u v = UnpackedFloat.mul spec v u := by
  cases u <;> cases v <;> simp only [UnpackedFloat.mul, sign_mul_comm, Nat.mul_comm, Int.add_comm]

/-- Products of singles do not depend on the order of the factors. -/
theorem single_mul_comm (x y : Float32) : x * y = y * x := by
  show Float32.ofModel (Float32.Model.pack _) = Float32.ofModel (Float32.Model.pack _)
  rw [unpacked_mul_comm]

end VoiceBench.Binary
