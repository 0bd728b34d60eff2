import Mathlib

/-!
# Doubles and their bits

A double is stored as its 64 bits, sign, biased exponent and mantissa, and a file keeps a float
field as those bits. Reading the bits back gives the same double (`ofBits_toBits`): unpacking
splits the bits into their three fields and packing puts them back, and the one thing unpacking
forgets, a NaN's payload, is fixed by the validity every stored double has, since only the
canonical NaN is valid.
-/

namespace VoiceBench.Binary

open Float.Model UnpackedFloat

/-- The number a concatenation of bit vectors stands for. -/
theorem toNat_append_eq {m n : Nat} (x : BitVec m) (y : BitVec n) :
    (x ++ y).toNat = x.toNat * 2 ^ n + y.toNat := by
  rw [BitVec.toNat_append, ← Nat.shiftLeft_add_eq_or_of_lt y.isLt, Nat.shiftLeft_eq]

section Double

variable (b : BitVec Format.binary64.numBits)

/-- The mantissa field is the low 52 bits. -/
theorem toNat_unpackMantissa :
    (unpackMantissa b).toNat = b.toNat % 2 ^ 52 := by
  simp [unpackMantissa]

/-- The exponent field is the 11 bits above the mantissa. -/
theorem toNat_unpackExponent :
    (unpackExponent b).toNat = b.toNat / 2 ^ 52 % 2 ^ 11 := by
  simp [unpackExponent, Nat.shiftRight_eq_div_pow]

/-- The sign read from the top bit is that bit. -/
theorem toNat_sign_unpackSign :
    (Sign.ofBitVec (unpackSign b)).toBitVec.toNat = b.toNat / 2 ^ 63 := by
  have hb : b.toNat < 2 ^ 64 := b.isLt
  have hsign : (unpackSign b).toNat = b.toNat / 2 ^ 63 := by
    simp [unpackSign, Nat.shiftRight_eq_div_pow]
    omega
  unfold Sign.ofBitVec
  split
  · rename_i h0
    have h0 := congrArg BitVec.toNat h0
    simp only [Sign.toBitVec, BitVec.toNat_ofNat] at h0 ⊢
    omega
  · rename_i h0
    have hne : (unpackSign b).toNat ≠ 0 :=
      fun h => h0 (BitVec.eq_of_toNat_eq h)
    simp only [Sign.toBitVec, BitVec.toNat_ofNat]
    omega

/-- The bits packed from a sign, an exponent field and a mantissa field. -/
theorem toNat_packComponents (s : Sign) (e : BitVec Format.binary64.exponentBits)
    (m : BitVec Format.binary64.mantissaBitsWithoutImplicit) :
    (packComponents Format.binary64 s e m).toNat =
      s.toBitVec.toNat * 2 ^ 63 + e.toNat * 2 ^ 52 + m.toNat := by
  simp only [packComponents, toNat_append_eq]
  omega

/-- Packing what a valid double unpacks to gives its bits back: validity rules out every NaN
payload but the canonical one, the only information unpacking forgets. -/
theorem pack_unpack (hv : Format.binary64.Valid b) :
    UnpackedFloat.pack Format.binary64 (UnpackedFloat.unpack Format.binary64 b) = b := by
  have hb : b.toNat < 2 ^ 64 := b.isLt
  have hs := toNat_sign_unpackSign b
  have he := toNat_unpackExponent b
  have hm := toNat_unpackMantissa b
  have hmlt : (unpackMantissa b).toNat < 2 ^ 52 := (unpackMantissa b).isLt
  have hbias : Format.binary64.exponentBias = 1023 := by decide
  have hbits : Format.binary64.mantissaBits = 53 := by decide
  rw [UnpackedFloat.unpack]
  split
  · rename_i hall
    have hall' : (unpackExponent b).toNat = 2047 := by simp [hall]
    split
    · rename_i hzero
      have hzero' : (unpackMantissa b).toNat = 0 := by simp [hzero]
      apply BitVec.eq_of_toNat_eq
      simp only [UnpackedFloat.pack, packedInfinity, toNat_packComponents, hs]
      simp
      omega
    · rename_i hnan
      exact (hv.eq_packedNaN hall hnan).symm
  · rename_i hnotall
    have hlt : (unpackExponent b).toNat < 2047 := by
      have hne : (unpackExponent b).toNat ≠ 2047 :=
        fun h => hnotall (BitVec.eq_of_toNat_eq (by simpa using h))
      omega
    split
    · rename_i hexp0
      have he0 : (unpackExponent b).toNat = 0 := by simp [hexp0]
      split
      · rename_i hzero
        have hzero' : (unpackMantissa b).toNat = 0 := by simp [hzero]
        apply BitVec.eq_of_toNat_eq
        simp only [UnpackedFloat.pack, packedZero, toNat_packComponents, hs]
        simp
        omega
      · -- subnormal: the biased exponent is one, the mantissa below the implicit bit
        rename_i hzero
        have hpos : 0 < (unpackMantissa b).toNat := BitVec.toNat_pos_of_ne_zero hzero
        have hlog : (unpackMantissa b).toNat.log2 < 52 := (Nat.log2_lt (by omega)).2 hmlt
        apply BitVec.eq_of_toNat_eq
        simp only [UnpackedFloat.pack]
        rw [if_neg (by rw [he0, hbias]; omega), if_neg (by rw [hbits]; omega),
          toNat_packComponents, hs]
        simp
        omega
    · -- normal: the implicit bit puts the significand at 53 bits, the exponent field is kept
      rename_i hexp0
      have hpos : 0 < (unpackExponent b).toNat := BitVec.toNat_pos_of_ne_zero hexp0
      have hsig : (1#1 ++ unpackMantissa b).toNat = 2 ^ 52 + (unpackMantissa b).toNat := by
        rw [toNat_append_eq]
        simp
      have hlog : (1#1 ++ unpackMantissa b).toNat.log2 = 52 := by
        rw [hsig]
        refine Nat.le_antisymm ?_ ?_
        · exact Nat.lt_succ_iff.1 ((Nat.log2_lt (by omega)).2 (by omega))
        · exact (Nat.le_log2 (by omega)).2 (by omega)
      apply BitVec.eq_of_toNat_eq
      simp only [UnpackedFloat.pack]
      rw [if_neg (by rw [hbias]; omega), if_pos (by rw [hlog, hbits]),
        toNat_packComponents, hs, hsig]
      simp
      omega

end Double

/-- Reading a double back from its bits gives the same double. -/
theorem ofBits_toBits (x : Float) : Float.ofBits x.toBits = x := by
  obtain ⟨⟨bits, hv⟩⟩ := x
  have h : UnpackedFloat.pack Format.binary64 (UnpackedFloat.unpack Format.binary64 bits.toBitVec) =
      bits.toBitVec := pack_unpack _ hv
  simp only [Float.ofBits, Float.toBits, Float.Model.ofBits, Float.Model.pack, h,
    UInt64.ofBitVec_toBitVec]

end VoiceBench.Binary
