import Mathlib
import VoiceBench.Binary.Fused
import VoiceBench.Proofs.Binary.FloatBits

/-!
# Two readings of an encoding

The library reads an encoding with `Format.unpack`, by arithmetic on a natural number; the float
arithmetic it computes with reads the same bits with `UnpackedFloat.unpack`, field by field on a
bit vector. The two readings agree (`unpack_eq_toModel`): the fields are the same numbers, a zero
significand is a zero, and both put the last significand bit at the same power of two. So what the
library proves of an encoding through `Format.unpack` holds of the float the arithmetic sees, for
singles and doubles alike (`Float32.unpack_toModel`, `Float.unpack_toModel`), and a single built
from an encoding reads back as that encoding (`unpack_singleOfBits`).
-/

namespace VoiceBench.Binary

open Float.Model UnpackedFloat

/-- The library's format with the widths of a format of the float arithmetic. -/
def Format.ofModel (spec : Float.Model.Format) : Format :=
  ⟨spec.mantissaBitsWithoutImplicit + 1, spec.exponentBits⟩

theorem Format.ofModel_binary32 : Format.ofModel .binary32 = Format.single := rfl

/-- The sign for a sign bit. -/
def signOf (neg : Bool) : Sign := if neg then .negative else .positive

/-- A reading of the library in the terms of the float arithmetic: a zero significand is a
zero. -/
def Unpacked.toModel : Unpacked → UnpackedFloat
  | .nan => .notANumber
  | .infinite s => .infinity (signOf s)
  | .finite s 0 _ => .zero (signOf s)
  | .finite s (m + 1) e => .finite (signOf s) (m + 1) e (Nat.succ_pos m)

theorem Unpacked.toModel_finite {neg : Bool} {m : Nat} (e : Int) (hm : 0 < m) :
    (Unpacked.finite neg m e).toModel = .finite (signOf neg) m e hm := by
  obtain ⟨k, rfl⟩ := Nat.exists_eq_add_one_of_ne_zero hm.ne'
  rfl

section Fields

variable {spec : Float.Model.Format} (b : BitVec spec.numBits)

/-- The mantissa field is the low bits. -/
theorem toNat_unpackMantissa_eq :
    (unpackMantissa b).toNat = b.toNat % 2 ^ spec.mantissaBitsWithoutImplicit := by
  have := spec.hm
  simp [unpackMantissa, Nat.sub_add_cancel this]

/-- The exponent field is the bits above the mantissa field. -/
theorem toNat_unpackExponent_eq :
    (unpackExponent b).toNat =
      b.toNat / 2 ^ spec.mantissaBitsWithoutImplicit % 2 ^ spec.exponentBits := by
  have := spec.he
  simp [unpackExponent, Nat.shiftRight_eq_div_pow]
  congr 2
  omega

/-- The sign is the top bit. -/
theorem ofBitVec_unpackSign :
    Sign.ofBitVec (unpackSign b) = signOf (b.toNat / (Format.ofModel spec).signBit % 2 == 1) := by
  have hb : b.toNat < 2 ^ (spec.mantissaBitsWithoutImplicit + spec.exponentBits + 1) :=
    b.isLt.trans_eq (by simp only [Float.Model.Format.numBits]; congr 1; omega)
  have hlt : b.toNat / 2 ^ (spec.mantissaBitsWithoutImplicit + spec.exponentBits) < 2 := by
    rw [Nat.div_lt_iff_lt_mul (by positivity), ← pow_succ']
    exact hb
  have hsign : (unpackSign b).toNat =
      b.toNat / 2 ^ (spec.mantissaBitsWithoutImplicit + spec.exponentBits) := by
    simp [unpackSign, Nat.shiftRight_eq_div_pow]
    omega
  simp only [Format.signBit, Format.fractionBits, Format.ofModel, Nat.add_sub_cancel, Nat.pow_eq]
  generalize b.toNat / 2 ^ (spec.mantissaBitsWithoutImplicit + spec.exponentBits) = q at hsign hlt
  unfold Sign.ofBitVec signOf
  by_cases h0 : q = 0
  · have : unpackSign b = 0#1 := BitVec.eq_of_toNat_eq (by simp [hsign, h0])
    simp [this, h0]
  · have : unpackSign b ≠ 0#1 := fun h => h0 (by simpa [hsign] using congrArg BitVec.toNat h)
    have h1 : q = 1 := by omega
    simp [this, h1]

theorem unpackExponent_eq_allOnes_iff :
    unpackExponent b = -1#_ ↔ b.toNat / 2 ^ spec.mantissaBitsWithoutImplicit %
      2 ^ spec.exponentBits = 2 ^ spec.exponentBits - 1 := by
  rw [BitVec.neg_one_eq_allOnes, ← BitVec.toNat_inj, toNat_unpackExponent_eq, BitVec.toNat_allOnes]

theorem unpackExponent_eq_zero_iff :
    unpackExponent b = 0#_ ↔
      b.toNat / 2 ^ spec.mantissaBitsWithoutImplicit % 2 ^ spec.exponentBits = 0 := by
  rw [← BitVec.toNat_inj, toNat_unpackExponent_eq, BitVec.toNat_zero]

theorem unpackMantissa_eq_zero_iff :
    unpackMantissa b = 0#_ ↔ b.toNat % 2 ^ spec.mantissaBitsWithoutImplicit = 0 := by
  rw [← BitVec.toNat_inj, toNat_unpackMantissa_eq, BitVec.toNat_zero]

/-- The float arithmetic reads an encoding as the library does. -/
theorem unpack_eq_toModel :
    UnpackedFloat.unpack spec b = ((Format.ofModel spec).unpack b.toNat).toModel := by
  have hmw := spec.hm
  unfold UnpackedFloat.unpack Format.unpack
  simp only [unpackExponent_eq_allOnes_iff, unpackExponent_eq_zero_iff,
    unpackMantissa_eq_zero_iff, ofBitVec_unpackSign, toNat_append_eq, toNat_unpackMantissa_eq,
    toNat_unpackExponent_eq]
  simp only [Format.ofModel, Format.fractionBits, Format.maxField, Format.minQuantum, Format.bias,
    Nat.add_sub_cancel, Nat.pow_eq, beq_iff_eq, BitVec.toNat_ofNat, pow_one, Nat.one_mod, one_mul]
  generalize b.toNat / 2 ^ spec.mantissaBitsWithoutImplicit % 2 ^ spec.exponentBits = F
  generalize (b.toNat / (⟨spec.mantissaBitsWithoutImplicit + 1, spec.exponentBits⟩ :
    Format).signBit % 2 == 1) = s
  have hbias : (spec.exponentBias : Int) = ((2 ^ (spec.exponentBits - 1) - 1 : Nat) : Int) := rfl
  split_ifs with hmax hf hzero hf'
  · rfl
  · rfl
  · rw [hf']
    rfl
  · rw [Unpacked.toModel_finite _ (Nat.pos_of_ne_zero hf'), hzero]
    congr 1
    omega
  · rw [Unpacked.toModel_finite _ (by positivity)]
    congr 1
    · omega
    · omega

/-- Repacking what was read and reading it again changes nothing: only a NaN's payload is lost,
and it reads as a NaN either way. -/
theorem unpack_pack_unpack (h2 : 2 ≤ spec.exponentBits) :
    UnpackedFloat.unpack spec (UnpackedFloat.pack spec (UnpackedFloat.unpack spec b)) =
      UnpackedFloat.unpack spec b := by
  by_cases hv : spec.Valid b
  · rw [pack_unpack_of_valid hv h2]
  · have hnan : UnpackedFloat.unpack spec b = .notANumber := by
      by_contra hne
      refine hv ⟨fun hexp hmant => absurd ?_ hne⟩
      unfold UnpackedFloat.unpack
      simp [hexp, hmant]
    rw [hnan]
    exact unpack_packedNaN

end Fields

namespace Float32

/-- The float arithmetic reads a single as the library reads its bits. -/
theorem unpack_toModel (x : Float32) :
    x.toModel.unpack = (Format.single.unpack x.toBits.toNat).toModel :=
  unpack_eq_toModel _

end Float32

namespace Float

/-- The float arithmetic reads a double as the library reads its bits. -/
theorem unpack_toModel (x : Float) :
    x.toModel.unpack = (Format.double.unpack x.toBits.toNat).toModel :=
  unpack_eq_toModel _

end Float

/-- A single built from an encoding reads as that encoding. -/
theorem unpack_singleOfBits (bits : Nat) :
    (singleOfBits bits).toModel.unpack = (Format.single.unpack (bits % 2 ^ 32)).toModel := by
  change UnpackedFloat.unpack _ (UnpackedFloat.pack _ (UnpackedFloat.unpack _ _)) = _
  rw [unpack_pack_unpack _ (by decide), unpack_eq_toModel]
  rfl

end VoiceBench.Binary
