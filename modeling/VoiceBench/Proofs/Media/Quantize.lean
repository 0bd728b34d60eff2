import Mathlib
import VoiceBench.Media.Recording
import VoiceBench.Proofs.Binary.Scaling
import VoiceBench.Proofs.Media.WavCodec

/-!
# Quantizing samples

Writing a recording at 8, 16 or 24 bits turns each single into an integer sample: the single
times the full scale `2 ^ (bits - 1)`, clamped to `[-2 ^ (bits - 1), 2 ^ (bits - 1) - 1]` and
truncated toward zero; a NaN becomes zero and an infinity the end of the range on its side.
`quantize` states that rule over the rationals, and `sampleFor_eq_quantize` proves the float
computation to be it. Every step is exact: the full scale and the ends of the range are singles
(`unpack_fullScale`, `hasValue_fullScale_sub_one`), the product by the full scale is exact or an
infinity (`mul_pow_two_exact`), the clamp compares exact values (`hasValue_clampToScale`), and
the conversion truncates (`castSingle_of_hasValue`).

Reading divides the integer by the full scale, which is exact too, so a written sample reads back
as the quantized value over the full scale (`hasValue_readBack`); at 32 bits the single is written
and read as itself (`readBack_float`).
-/

namespace VoiceBench.Media

open Binary Float.Model UnpackedFloat

/-! ## The quantizer -/

/-- The integer sample of an unpacked single at full scale `2 ^ k`: its value scaled, clamped to
`[-2 ^ k, 2 ^ k - 1]` and truncated toward zero; a NaN gives zero and an infinity the end of the
range on its side. -/
def quantize (k : Nat) : UnpackedFloat → Int
  | .notANumber => 0
  | .infinity .negative => -2 ^ k
  | .infinity .positive => 2 ^ k - 1
  | .zero _ => 0
  | .finite s m e _ => truncate (max (-2 ^ k) (min (2 ^ k - 1) (withSign s (m * 2 ^ e) * 2 ^ k)))

/-- A value clamped to the range of `k + 1`-bit integers and truncated stays in the range. -/
theorem truncate_clamp_mem (k : Nat) (a : ℚ) :
    -2 ^ k ≤ truncate (max (-2 ^ k) (min (2 ^ k - 1) a)) ∧
      truncate (max (-2 ^ k) (min (2 ^ k - 1) a)) ≤ 2 ^ k - 1 := by
  have hk : (1 : ℚ) ≤ 2 ^ k := one_le_pow₀ one_le_two
  exact_mod_cast truncate_mem
    (show (((-2 ^ k : Int)) : ℚ) ≤ _ by push_cast; exact le_max_left _ _)
    (show _ ≤ (((2 ^ k - 1 : Int)) : ℚ) by push_cast; exact max_le (by linarith) (min_le_left _ _))

/-- A quantized sample lies in the range of `k + 1`-bit integers. -/
theorem quantize_mem (k : Nat) (u : UnpackedFloat) :
    -2 ^ k ≤ quantize k u ∧ quantize k u ≤ 2 ^ k - 1 := by
  have hk : (1 : Int) ≤ 2 ^ k := one_le_pow₀ (by norm_num)
  cases u with
  | notANumber => simp only [quantize]; omega
  | infinity s => cases s <;> simp only [quantize] <;> omega
  | zero s => simp only [quantize]; omega
  | finite s m e hm => exact truncate_clamp_mem k _

/-- A value at least `2 ^ 128` times the scale is past the range on its side. -/
theorem quantize_of_overflow {k : Nat} (hk : k ≤ 23) (neg : Bool) {m : Nat} {e : Int}
    (hm : 0 < m) (hbig : (2 : ℚ) ^ (128 : Int) ≤ m * 2 ^ (e + k)) :
    quantize k (.finite (signOf neg) m e hm) = if neg then -2 ^ k else 2 ^ k - 1 := by
  have hscaled : (m : ℚ) * 2 ^ e * 2 ^ k = m * 2 ^ (e + k) := by
    rw [zpow_add₀ two_ne_zero, zpow_natCast, mul_assoc]
  have hk1 : (1 : ℚ) ≤ 2 ^ k := one_le_pow₀ one_le_two
  have hsmall : (2 : ℚ) ^ k < 2 ^ (128 : Int) := by
    rw [← zpow_natCast]
    exact zpow_lt_zpow_right₀ one_lt_two (by omega)
  cases neg with
  | true =>
    simp only [quantize, signOf, if_true, withSign, neg_mul, hscaled]
    rw [min_eq_right (by linarith), max_eq_left (by linarith)]
    exact_mod_cast truncate_intCast (-2 ^ k)
  | false =>
    simp only [quantize, signOf, Bool.false_eq_true, if_false, withSign, hscaled]
    rw [min_eq_left (by linarith), max_eq_right (by linarith)]
    exact_mod_cast truncate_intCast (2 ^ k - 1)

/-! ## The full scale -/

section FullScale

variable {bits : Nat}

/-- The full scale of up to 25 bits is a power of two with the significand of one. -/
theorem unpack_fullScale (h : bits ≤ 25) :
    (fullScale bits).toModel.unpack =
      .finite .positive (2 ^ 23) (((bits - 1 : Nat) : Int) - 23) (by positivity) := by
  rw [fullScale, Nat.pow_eq]
  exact unpack_singleOfNat_two_pow (by omega)

theorem hasValue_fullScale (h : bits ≤ 25) : HasValue (fullScale bits) (2 ^ (bits - 1)) := by
  rw [hasValue_iff, unpack_fullScale h]
  refine ⟨⟨by norm_num, by omega, by omega, Or.inl le_rfl⟩, ?_⟩
  simp only [valueOf?, withSign, Option.some.injEq]
  rw [zpow_sub₀ two_ne_zero, zpow_natCast]
  push_cast
  ring

/-- One below the full scale is a single too. -/
theorem hasValue_fullScale_sub_one (h2 : 2 ≤ bits) (h : bits ≤ 25) :
    HasValue (fullScale bits - 1) (2 ^ (bits - 1) - 1) := by
  have hk1 : 1 ≤ bits - 1 := by omega
  have hk : bits - 1 ≤ 24 := by omega
  rw [hasValue_iff, fullScale, Nat.pow_eq, unpack_singleOfNat_two_pow_sub_one hk1 hk]
  have hlow : 2 ^ (24 - (bits - 1)) ≤ 2 ^ 23 := Nat.pow_le_pow_right (by norm_num) (by omega)
  have hpos : 0 < 2 ^ (24 - (bits - 1)) := by positivity
  refine ⟨⟨by omega, by omega, by omega, Or.inl (by omega)⟩, ?_⟩
  simp only [valueOf?, withSign, Option.some.injEq]
  have hlow' : (2 : ℚ) ^ (24 - (bits - 1)) * 2 ^ (((bits - 1 : Nat) : Int) - 24) = 1 := by
    rw [← zpow_natCast, ← zpow_add₀ two_ne_zero,
      show (((24 - (bits - 1) : Nat) : Int) + (((bits - 1 : Nat) : Int) - 24)) = 0 by omega,
      zpow_zero]
  have htop : (2 : ℚ) ^ 24 * 2 ^ (((bits - 1 : Nat) : Int) - 24) = 2 ^ (bits - 1) := by
    rw [← zpow_natCast, ← zpow_add₀ two_ne_zero, ← zpow_natCast]
    congr 1
    omega
  rw [Nat.cast_sub (by omega), sub_mul]
  simp only [Nat.cast_pow, Nat.cast_ofNat]
  rw [htop, hlow']

/-- The ends of the range of `bits`-bit samples, `-2 ^ (bits - 1)` and `2 ^ (bits - 1) - 1`, are
singles, in order. -/
theorem hasValue_range_ends (h2 : 2 ≤ bits) (h : bits ≤ 25) :
    HasValue (-fullScale bits) (-2 ^ (bits - 1)) ∧
      HasValue (fullScale bits - 1) (2 ^ (bits - 1) - 1) ∧
      (-2 ^ (bits - 1) : ℚ) ≤ 2 ^ (bits - 1) - 1 := by
  have hk : (1 : ℚ) ≤ 2 ^ (bits - 1) := one_le_pow₀ one_le_two
  exact ⟨(hasValue_fullScale h).neg, hasValue_fullScale_sub_one h2 h, by linarith⟩

/-- Samples of at most 24 bits lie within the 32-bit integers. -/
theorem range_within_int32 (h24 : bits ≤ 24) :
    -(Nat.pow 2 31 : Int) ≤ -2 ^ (bits - 1) ∧ (2 : Int) ^ (bits - 1) - 1 ≤ Nat.pow 2 31 - 1 := by
  have hpow : (2 : Int) ^ (bits - 1) ≤ 2 ^ 23 := pow_le_pow_right₀ (by norm_num) (by omega)
  have h31 : (Nat.pow 2 31 : Int) = 2147483648 := rfl
  omega

end FullScale

/-! ## The clamp -/

/-- The clamp of a scaled single: below `-scale` to `-scale`, then above `scale - 1` to
`scale - 1`. -/
def clampToScale (scale y : Float32) : Float32 :=
  let y := if y < -scale then -scale else y
  if y > scale - 1 then scale - 1 else y

theorem sampleFor_of_ne {bits : Nat} (h : bits ≠ 32) (x : Float32) :
    sampleFor bits x = .int (castSingle (-(Nat.pow 2 31 : Int)) (Nat.pow 2 31 - 1)
      (clampToScale (fullScale bits) (x * fullScale bits))) := by
  simp only [sampleFor, if_neg h]
  rfl

section Clamp

variable {scale y : Float32} {l h : ℚ}

/-- A single clamped between two singles is a single of the clamped value. -/
theorem hasValue_clampToScale (hl : HasValue (-scale) l) (hh : HasValue (scale - 1) h)
    (hlh : l ≤ h) {a : ℚ} (hy : HasValue y a) :
    HasValue (clampToScale scale y) (max l (min h a)) := by
  unfold clampToScale
  by_cases hlo : a < l
  · have hup : ¬(scale - 1 < -scale) := fun h' => absurd ((hh.lt_iff hl).1 h') (not_lt.2 hlh)
    rw [if_pos ((hy.lt_iff hl).2 hlo)]
    simp only [gt_iff_lt, if_neg hup]
    rwa [max_eq_left ((min_le_right _ _).trans hlo.le)]
  · rw [if_neg (mt (hy.lt_iff hl).1 hlo)]
    by_cases hhi : h < a
    · simp only [gt_iff_lt, if_pos ((hh.lt_iff hy).2 hhi)]
      rwa [min_eq_left hhi.le, max_eq_right hlh]
    · simp only [gt_iff_lt, if_neg (mt (hh.lt_iff hy).1 hhi)]
      rwa [min_eq_right (not_lt.1 hhi), max_eq_right (not_lt.1 hlo)]

/-- An infinity is clamped to the end of the range on its side. -/
theorem clampToScale_of_infinity (hl : HasValue (-scale) l) (hh : HasValue (scale - 1) h)
    (hlh : l ≤ h) {neg : Bool} (hy : y.toModel.unpack = .infinity (signOf neg)) :
    clampToScale scale y = if neg then -scale else scale - 1 := by
  unfold clampToScale
  have hup : ¬(scale - 1 < -scale) := fun h' => absurd ((hh.lt_iff hl).1 h') (not_lt.2 hlh)
  cases neg with
  | true =>
    have hlt : y < -scale := single_lt_iff.2 (by rw [hy]; exact (infinity_lt_iff hl.isSingle _).2 rfl)
    simp only [if_pos hlt, gt_iff_lt, if_neg hup, if_true]
  | false =>
    have hnlt : ¬y < -scale := fun h' => by
      rw [single_lt_iff, hy, infinity_lt_iff hl.isSingle] at h'
      cases h'
    have hgt : scale - 1 < y := single_lt_iff.2 (by rw [hy]; exact (lt_infinity_iff hh.isSingle _).2 rfl)
    simp only [if_neg hnlt, gt_iff_lt, if_pos hgt, Bool.false_eq_true, if_false]

/-- A NaN is left as it is: it compares with nothing. -/
theorem clampToScale_of_notANumber (hy : y.toModel.unpack = .notANumber) :
    clampToScale scale y = y := by
  unfold clampToScale
  have hlo : ¬y < -scale := fun h' => by
    rw [single_lt_iff, hy, UnpackedFloat.notANumber_lt] at h'
    cases h'
  have hhi : ¬scale - 1 < y := fun h' => by
    rw [single_lt_iff, hy, UnpackedFloat.lt_notANumber] at h'
    cases h'
  simp only [if_neg hlo, gt_iff_lt, if_neg hhi]

end Clamp

/-! ## Scaling to the full scale -/

/-- The product of a single and the full scale, by the class of the single: a NaN, an infinity
and a zero keep their class and sign, and a finite single is scaled exactly or overflows to an
infinity of its sign. -/
theorem unpack_mul_fullScale {bits : Nat} (h : bits ≤ 25) (x : Float32) :
    (x * fullScale bits).toModel.unpack = UnpackedFloat.unpack .binary32
      (UnpackedFloat.pack .binary32 (UnpackedFloat.mul .binary32 x.toModel.unpack
        (.finite .positive (2 ^ 23) (((bits - 1 : Nat) : Int) - 23) (by positivity)))) := by
  rw [← unpack_fullScale h]
  rfl

/-! ## Writing a single -/

section Write

variable {bits : Nat}

/-- A scaled single of value `a` is written as `a` clamped to the range and truncated. -/
theorem castSingle_clampToScale (h2 : 2 ≤ bits) (h24 : bits ≤ 24) {y : Float32} {a : ℚ}
    (hy : HasValue y a) :
    castSingle (-(Nat.pow 2 31 : Int)) (Nat.pow 2 31 - 1) (clampToScale (fullScale bits) y) =
      truncate (max (-2 ^ (bits - 1)) (min (2 ^ (bits - 1) - 1) a)) := by
  obtain ⟨hl, hh, hlh⟩ := hasValue_range_ends h2 (by omega)
  rw [castSingle_of_hasValue (hasValue_clampToScale hl hh hlh hy)]
  have hmem := truncate_clamp_mem (bits - 1) a
  have hrange := range_within_int32 h24
  omega

/-- An infinity is written as the end of the range on its side. -/
theorem castSingle_clampToScale_infinity (h2 : 2 ≤ bits) (h24 : bits ≤ 24) {y : Float32}
    {neg : Bool} (hy : y.toModel.unpack = .infinity (signOf neg)) :
    castSingle (-(Nat.pow 2 31 : Int)) (Nat.pow 2 31 - 1) (clampToScale (fullScale bits) y) =
      if neg then -2 ^ (bits - 1) else 2 ^ (bits - 1) - 1 := by
  obtain ⟨hl, hh, hlh⟩ := hasValue_range_ends h2 (by omega)
  obtain ⟨hlo, hhi⟩ := range_within_int32 h24
  have hk : (1 : Int) ≤ 2 ^ (bits - 1) := one_le_pow₀ (by norm_num)
  rw [clampToScale_of_infinity hl hh hlh hy]
  cases neg with
  | true => exact castSingle_of_hasValue_intCast (by exact_mod_cast hl) hlo (by omega)
  | false => exact castSingle_of_hasValue_intCast (by exact_mod_cast hh) (by omega) hhi

/-- At 8, 16 and 24 bits a single is written as its quantized value: scaled, clamped and
truncated, a NaN as zero and an infinity as the end of the range on its side. -/
theorem sampleFor_eq_quantize (hb : bits = 8 ∨ bits = 16 ∨ bits = 24) (x : Float32) :
    sampleFor bits x = .int (quantize (bits - 1) x.toModel.unpack) := by
  have h2 : 2 ≤ bits := by omega
  have h24 : bits ≤ 24 := by omega
  rw [sampleFor_of_ne (by omega)]
  congr 1
  have hmul := unpack_mul_fullScale (show bits ≤ 25 by omega) x
  generalize hu : x.toModel.unpack = u at hmul
  cases u with
  | notANumber =>
    have hy := hmul.trans (unpack_pack_mul_notANumber _)
    rw [clampToScale_of_notANumber hy, castSingle_of_unpack_notANumber hy]
    rfl
  | infinity s =>
    obtain ⟨neg, rfl⟩ := exists_signOf s
    rw [castSingle_clampToScale_infinity h2 h24 (hmul.trans (unpack_pack_mul_infinity _ _))]
    cases neg <;> rfl
  | zero s =>
    have hy : HasValue (x * fullScale bits) 0 := by
      rw [hasValue_iff, hmul, unpack_pack_mul_zero]
      exact ⟨trivial, rfl⟩
    rw [castSingle_clampToScale h2 h24 hy]
    have hk : (1 : ℚ) ≤ 2 ^ (bits - 1) := one_le_pow₀ one_le_two
    rw [min_eq_right (by linarith), max_eq_right (by linarith)]
    rfl
  | finite s m e hm =>
    have hf := Float32.singleFields_of_unpack_eq hu
    rcases mul_pow_two_exact (s := s) hm hf (k := ((bits - 1 : Nat) : Int)) (by omega) with
      ⟨hinf, hbig⟩ | ⟨m', e', hm', hfin, hf', hval⟩
    · -- past the largest single the product is an infinity, written as an end of the range
      obtain ⟨neg, rfl⟩ := exists_signOf s
      rw [castSingle_clampToScale_infinity h2 h24 (hmul.trans hinf),
        quantize_of_overflow (by omega) neg hm hbig]
    · have hy : HasValue (x * fullScale bits) (withSign s (m * 2 ^ e) * 2 ^ (bits - 1)) := by
        rw [hasValue_iff, hmul, hfin]
        refine ⟨hf', ?_⟩
        simp only [valueOf?, withSign_mul, hval, mul_assoc]
        rw [zpow_add₀ (two_ne_zero : (2 : ℚ) ≠ 0), zpow_natCast]
      rw [castSingle_clampToScale h2 h24 hy]
      rfl

/-- A written sample fits its width. -/
theorem sampleFor_fits (hb : bits = 8 ∨ bits = 16 ∨ bits = 24 ∨ bits = 32) (x : Float32) :
    (sampleFor bits x).Fits bits := by
  by_cases h32 : bits = 32
  · subst h32
    rfl
  · have hint : bits = 8 ∨ bits = 16 ∨ bits = 24 := by omega
    rw [sampleFor_eq_quantize hint]
    obtain ⟨hlo, hhi⟩ := quantize_mem (bits - 1) x.toModel.unpack
    exact ⟨hint, hlo, by omega⟩

end Write

/-! ## Reading back -/

/-- A single as it reads back after being written at `bits` bits. -/
def readBack (bits : Nat) (x : Float32) : Float32 :=
  Sample.normalized (fullScale bits) (sampleFor bits x)

/-- At 8, 16 and 24 bits a single reads back as its quantized value over the full scale. -/
theorem hasValue_readBack {bits : Nat} (hb : bits = 8 ∨ bits = 16 ∨ bits = 24) (x : Float32) :
    HasValue (readBack bits x) (quantize (bits - 1) x.toModel.unpack / 2 ^ (bits - 1)) := by
  rw [readBack, sampleFor_eq_quantize hb, Sample.normalized, fullScale, Nat.pow_eq]
  obtain ⟨hlo, hhi⟩ := quantize_mem (bits - 1) x.toModel.unpack
  have hpow : (2 : Int) ^ (bits - 1) ≤ 2 ^ 23 := pow_le_pow_right₀ (by norm_num) (by omega)
  exact hasValue_singleOfInt_div (by omega) (by omega)

/-- At 32 bits a single reads back as itself, bit for bit. -/
theorem readBack_float (x : Float32) : readBack 32 x = x := rfl

end VoiceBench.Media
