import Mathlib
import VoiceBench.Proofs.Binary.UnitInterval

/-!
# Shares of a single

A share of a count, `(1 - x) * n` for a single `x` in `[0, 1)`, rounded to a single and
truncated to an integer, is never above `n` when `n` is a single exactly. Each step is bounded
from above by the same fact: a value rounded to a single is never above a single that bounds its
exact value, since that bound is a whole number of steps at the target exponent of the rounding
(`roundAt_target_le`, `atMost_roundWithAccuracy`, `atMost_round`).

So `1 - x` is a zero or a positive single of at most one (`atMost_one_sub`), a positive normal
single times such a share is at most itself (`atMost_mul_share`), and truncating a value of at
most `n` to an integer range starting at zero gives at most `n` (`castSingle_le_of_atMost`).
Counts from one to `2 ^ 24` are singles exactly (`singleOfNat_exact`).
-/

namespace VoiceBench.Binary

open Float.Model UnpackedFloat

/-- A zero of either sign, or a positive finite single whose value is at most `b`. -/
def AtMost (b : ℚ) : UnpackedFloat → Prop
  | .zero _ => True
  | .finite .positive m e _ => SingleFields m e ∧ (m : ℚ) * 2 ^ e ≤ b
  | _ => False

/-! ## Rounding below a single -/

/-- Shifting a significand left adds the shift to its binary logarithm. -/
theorem log2_mul_two_pow {M : Nat} (hM : 0 < M) (s : Nat) : (M * 2 ^ s).log2 = M.log2 + s := by
  have hne : M * 2 ^ s ≠ 0 := (Nat.mul_pos hM (Nat.pow_pos (by norm_num))).ne'
  refine le_antisymm (Nat.lt_succ_iff.1 ((Nat.log2_lt hne).2 ?_)) ((Nat.le_log2 hne).2 ?_)
  · rw [Nat.succ_eq_add_one, show M.log2 + s + 1 = M.log2 + 1 + s by omega, Nat.pow_add]
    exact Nat.mul_lt_mul_of_pos_right Nat.lt_log2_self (Nat.pow_pos (by norm_num))
  · rw [Nat.pow_add]
    exact Nat.mul_le_mul_right _ (Nat.log2_self_le hM.ne')

/-- An exact value below `q * 2 ^ e`, with `q` of 24 bits, is rounded at an exponent of at most
`e`. -/
theorem targetExponent_le_of_le {M q : Nat} {E e : Int} (hM : 0 < M) (hq : q < 2 ^ 24)
    (he : -149 ≤ e) (hle : (M : ℚ) * 2 ^ E ≤ q * 2 ^ e) :
    Format.binary32.targetExponent (totalExponent M E) ≤ e := by
  rw [targetExponent_binary32, totalExponent]
  have hlead : (2 : ℚ) ^ ((M.log2 : Int) + E) ≤ M * 2 ^ E := by
    rw [zpow_add₀ two_ne_zero, zpow_natCast]
    gcongr
    exact_mod_cast Nat.log2_self_le hM.ne'
  have hq2 : (q : ℚ) * 2 ^ e < 2 ^ (24 + e) := by
    rw [zpow_add₀ two_ne_zero]
    gcongr
    exact_mod_cast hq
  have h24 : (M.log2 : Int) + E < 24 + e :=
    (zpow_lt_zpow_iff_right₀ (by norm_num : (1 : ℚ) < 2)).1 (hlead.trans_lt (hle.trans_lt hq2))
  omega

/-- Rounding at the target exponent stays below every `q * 2 ^ e` above the exact value, with `q`
of 24 bits: such a bound is a whole number of steps there. -/
theorem roundAt_target_le {M q : Nat} {E e : Int} (hM : 0 < M) (hq : q < 2 ^ 24)
    (he : -149 ≤ e) (hle : (M : ℚ) * 2 ^ E ≤ q * 2 ^ e) :
    (roundAt M 1 (Format.binary32.targetExponent (totalExponent M E) - E) : ℚ) *
      2 ^ Format.binary32.targetExponent (totalExponent M E) ≤ q * 2 ^ e := by
  have ht := targetExponent_le_of_le hM hq he hle
  generalize Format.binary32.targetExponent (totalExponent M E) = t at ht ⊢
  obtain ⟨d, hd⟩ : ∃ d : Nat, e = t + d := ⟨(e - t).toNat, by omega⟩
  have hsteps : (q : ℚ) * 2 ^ e = ((q * 2 ^ d : Nat) : ℚ) * 2 ^ t := by
    rw [hd, zpow_add₀ two_ne_zero, zpow_natCast]
    push_cast
    ring
  have hK : roundAt M 1 (t - E) ≤ q * 2 ^ d := by
    refine roundAt_le_of_le one_pos ?_
    rw [Nat.cast_one, div_one, zpow_sub₀ two_ne_zero, ← mul_div_assoc,
      le_div_iff₀ (by positivity), ← hsteps]
    exact hle
  rw [hsteps]
  exact mul_le_mul_of_nonneg_right (by exact_mod_cast hK) (by positivity)

/-- A value below a single, normal or at the least exponent, has an exponent a single can hold. -/
theorem exponent_le_of_le_single {m q : Nat} {e' e : Int} (hnorm : 2 ^ 23 ≤ m ∨ e' = -149)
    (hq : SingleFields q e) (hle : (m : ℚ) * 2 ^ e' ≤ q * 2 ^ e) : e' ≤ 104 := by
  rcases hnorm with hm | he'
  · have hlo : (2 : ℚ) ^ (23 + e') ≤ m * 2 ^ e' := by
      rw [zpow_add₀ two_ne_zero]
      gcongr
      exact_mod_cast hm
    have hhi : (q : ℚ) * 2 ^ e < 2 ^ (24 + e) := by
      rw [zpow_add₀ two_ne_zero]
      gcongr
      exact_mod_cast hq.significand_lt
    have := (zpow_lt_zpow_iff_right₀ (by norm_num : (1 : ℚ) < 2)).1
      (hlo.trans_lt (hle.trans_lt hhi))
    have := hq.exponent_le
    omega
  · omega

/-- A positive exact value `M * 2 ^ E` whose exponent is not above its target, at most a single,
is rounded to a zero or to a positive single at most that single. -/
theorem atMost_roundWithAccuracy {M : Nat} (hM : 0 < M) {E : Int}
    (hE : E ≤ Format.binary32.targetExponent (totalExponent M E)) {q : Nat} {e : Int}
    (hq : SingleFields q e) (hle : (M : ℚ) * 2 ^ E ≤ q * 2 ^ e) :
    AtMost (q * 2 ^ e) (roundWithAccuracy .binary32 .positive M E .exact) := by
  rcases roundWithAccuracy_binary32 .positive hM hE with
    ⟨-, hzero⟩ | ⟨m, e', hm, hfin, hm24, he', hnorm, hval⟩
  · rw [hzero]
    trivial
  · have hbound : (m : ℚ) * 2 ^ e' ≤ q * 2 ^ e :=
      hval ▸ roundAt_target_le hM hq.significand_lt hq.exponent_ge hle
    rw [hfin]
    exact ⟨⟨hm24, he', exponent_le_of_le_single hnorm hq hbound, hnorm⟩, hbound⟩

/-- Lowering the exponent of a value keeps the value. -/
theorem decreaseExponent_value (m : Nat) (e t : Int) :
    ((decreaseExponent m e t).1 : ℚ) * 2 ^ (decreaseExponent m e t).2 = m * 2 ^ e := by
  simp only [decreaseExponent, Nat.shiftLeft_eq, Nat.cast_mul, Nat.cast_pow, Nat.cast_ofNat]
  rw [← zpow_natCast, mul_assoc, ← zpow_add₀ two_ne_zero]
  congr 2
  omega

/-- `round` moves a value to its target exponent before rounding it there, so a positive value at
most a single is rounded to a zero or to a positive single at most that single. -/
theorem atMost_round {M : Nat} (hM : 0 < M) (E : Int) {q : Nat} {e : Int} (hq : SingleFields q e)
    (hle : (M : ℚ) * 2 ^ E ≤ q * 2 ^ e) :
    AtMost (q * 2 ^ e) (UnpackedFloat.round .binary32 .positive M E) := by
  have hround : UnpackedFloat.round .binary32 .positive M E =
      roundWithAccuracy .binary32 .positive (decreaseExponent M E
        (Format.binary32.targetExponent (totalExponent M E))).1
        (decreaseExponent M E (Format.binary32.targetExponent (totalExponent M E))).2 .exact :=
    rfl
  have hval := decreaseExponent_value M E (Format.binary32.targetExponent (totalExponent M E))
  rw [hround]
  generalize ht : Format.binary32.targetExponent (totalExponent M E) = t at hval ⊢
  simp only [decreaseExponent, Nat.shiftLeft_eq] at hval ⊢
  have hE : E - ((E - t).toNat : Int) ≤
      Format.binary32.targetExponent (totalExponent (M * 2 ^ (E - t).toNat) (E - (E - t).toNat)) := by
    rw [targetExponent_binary32, totalExponent, log2_mul_two_pow hM]
    rw [targetExponent_binary32, totalExponent] at ht
    omega
  exact atMost_roundWithAccuracy (Nat.mul_pos hM (Nat.pow_pos (by norm_num))) hE hq
    (hval.trans_le hle)

/-- Repacking a value keeps it below its bound. -/
theorem atMost_unpack_pack {b : ℚ} {u : UnpackedFloat} (hu : AtMost b u) :
    AtMost b (UnpackedFloat.unpack .binary32 (UnpackedFloat.pack .binary32 u)) := by
  cases u with
  | zero s =>
    rw [UnpackedFloat.pack, unpack_packedZero]
    trivial
  | finite s m e hm =>
    cases s with
    | positive =>
      rw [unpack_pack_binary32 _ hm hu.1]
      exact hu
    | negative => exact hu.elim
  | notANumber => exact hu.elim
  | infinity s => exact hu.elim

/-! ## One less a single in `[0, 1)` -/

/-- The single one, as the float arithmetic reads it. -/
theorem unpack_one :
    (1 : Float32).toModel.unpack = .finite .positive (2 ^ 23) (-23) (by decide) := rfl

theorem singleFields_one : SingleFields (2 ^ 23) (-23) :=
  ⟨by norm_num, by norm_num, by norm_num, Or.inl le_rfl⟩

/-- A significand moved down to the exponent `s` keeps its value. -/
theorem shifted_value (m : Nat) {e s : Int} (h : s ≤ e) :
    ((m * 2 ^ (e - s).toNat : Nat) : ℚ) * 2 ^ s = m * 2 ^ e := by
  push_cast
  rw [← zpow_natCast, mul_assoc, ← zpow_add₀ two_ne_zero]
  congr 2
  omega

/-- A positive exact sum is rounded as a positive value. -/
theorem normalize_of_pos {M : Int} (hM : 0 < M) (E : Int) (z : Sign) :
    normalize .binary32 M E z = UnpackedFloat.round .binary32 .positive M.toNat E := by
  unfold UnpackedFloat.normalize
  rw [Int.compare_eq_gt.mpr hM]

/-- One less a single in `[0, 1)` is a zero or a positive single of at most one: the exact
difference lies in `(0, 1]`, and one is a single. -/
theorem atMost_one_sub {x : Float32} (h0 : 0 ≤ x) (h1 : x < 1) :
    AtMost 1 (1 - x).toModel.unpack := by
  have hsub : (1 - x).toModel.unpack = UnpackedFloat.unpack .binary32 (UnpackedFloat.pack .binary32
      (UnpackedFloat.sub .binary32 (1 : Float32).toModel.unpack x.toModel.unpack)) := rfl
  rw [hsub]
  refine atMost_unpack_pack ?_
  rw [unpack_one]
  rcases Float32.unpack_of_mem_Ico h0 h1 with ⟨s, hs⟩ | ⟨mo, eo, hmo, hx, -, hvo⟩
  · -- one less a zero is one
    rw [hs]
    exact ⟨singleFields_one, by norm_num⟩
  · rw [hx]
    simp only [UnpackedFloat.sub, decreaseExponent, Sign.apply, Nat.shiftLeft_eq]
    generalize ht : min (-23) eo = t
    have hone := shifted_value (2 ^ 23) (show t ≤ -23 by omega)
    have hx' := shifted_value mo (show t ≤ eo by omega)
    have hunit : ((2 ^ 23 : Nat) : ℚ) * 2 ^ (-23 : Int) = 1 := by norm_num
    rw [hunit] at hone
    generalize 2 ^ 23 * 2 ^ (-23 - t).toNat = M₁ at hone
    generalize mo * 2 ^ (eo - t).toNat = M₂ at hx'
    have hlt : (M₂ : ℚ) * 2 ^ t < M₁ * 2 ^ t := by
      rw [hone, hx']
      have : (0 : ℚ) < 2 ^ (-24 : Int) := by positivity
      linarith
    have hM : M₂ < M₁ := by exact_mod_cast lt_of_mul_lt_mul_right hlt (by positivity)
    rw [normalize_of_pos (by omega)]
    have hdiff : (((M₁ : Int) - M₂).toNat : ℚ) = M₁ - M₂ := by
      rw [show ((M₁ : Int) - M₂).toNat = M₁ - M₂ by omega, Nat.cast_sub hM.le]
    have hle : (((M₁ : Int) - M₂).toNat : ℚ) * 2 ^ t ≤ ((2 ^ 23 : Nat) : ℚ) * 2 ^ (-23 : Int) := by
      rw [hdiff, sub_mul, hone, hunit]
      have : (0 : ℚ) ≤ M₂ * 2 ^ t := by positivity
      linarith
    have hround := atMost_round (show 0 < ((M₁ : Int) - M₂).toNat by omega) t singleFields_one hle
    rwa [hunit] at hround

/-! ## A share of a single -/

/-- A positive normal single times a share of at most one is at most itself: the exact product is
at most the first factor, which is a single. -/
theorem atMost_mul_share {x y : Float32} {q : Nat} {e : Int} {hq : 0 < q}
    (hx : x.toModel.unpack = .finite .positive q e hq) (hfields : SingleFields q e)
    (hq23 : 2 ^ 23 ≤ q) (hy : AtMost 1 y.toModel.unpack) :
    AtMost (q * 2 ^ e) (x * y).toModel.unpack := by
  have hmul : (x * y).toModel.unpack = UnpackedFloat.unpack .binary32 (UnpackedFloat.pack .binary32
      (UnpackedFloat.mul .binary32 x.toModel.unpack y.toModel.unpack)) := rfl
  rw [hmul]
  refine atMost_unpack_pack ?_
  rw [hx]
  generalize y.toModel.unpack = u at hy
  cases u with
  | zero s => exact (trivial : AtMost _ (.zero (Sign.positive * s)))
  | finite s mo eo hmo =>
    cases s with
    | negative => exact hy.elim
    | positive =>
      obtain ⟨-, hyv⟩ := hy
      have hlog : 23 ≤ (q * mo).log2 :=
        (Nat.le_log2 (Nat.mul_pos hq hmo).ne').2 (hq23.trans (Nat.le_mul_of_pos_right q hmo))
      have hE : e + eo ≤ Format.binary32.targetExponent (totalExponent (q * mo) (e + eo)) := by
        rw [targetExponent_binary32, totalExponent]
        omega
      show AtMost _ (roundWithAccuracy .binary32 .positive (q * mo) (e + eo) .exact)
      refine atMost_roundWithAccuracy (Nat.mul_pos hq hmo) hE hfields ?_
      have hprod : ((q * mo : Nat) : ℚ) * 2 ^ (e + eo) = q * 2 ^ e * (mo * 2 ^ eo) := by
        push_cast
        rw [zpow_add₀ two_ne_zero]
        ring
      rw [hprod]
      calc (q : ℚ) * 2 ^ e * (mo * 2 ^ eo) ≤ q * 2 ^ e * 1 :=
            mul_le_mul_of_nonneg_left hyv (by positivity)
        _ = q * 2 ^ e := mul_one _
  | notANumber => exact hy.elim
  | infinity s => exact hy.elim

/-! ## Truncating to an integer -/

/-- Truncation toward zero keeps at most the value. -/
theorem truncated_le (m : Nat) (e : Int) :
    ((m * 2 ^ e.toNat / 2 ^ (-e).toNat : Nat) : ℚ) ≤ m * 2 ^ e := by
  calc ((m * 2 ^ e.toNat / 2 ^ (-e).toNat : Nat) : ℚ) ≤ ((m * 2 ^ e.toNat : Nat) : ℚ) / 2 ^ (-e).toNat := by
        exact_mod_cast Nat.cast_div_le
    _ = m * 2 ^ e := by
      push_cast
      rw [← zpow_natCast, ← zpow_natCast, mul_div_assoc, ← zpow_sub₀ two_ne_zero]
      congr 2
      omega

/-- A finite single converts to the integer part of its value, with its sign, clamped to the
range. -/
theorem castSingle_of_unpack_finite {x : Float32} {s : Sign} {m : Nat} {e : Int} {hm : 0 < m}
    (h : x.toModel.unpack = .finite s m e hm) (lo hi : Int) :
    castSingle lo hi x = max lo (min hi (s.apply (m * 2 ^ e.toNat / 2 ^ (-e).toNat : Nat))) := by
  rw [Float32.unpack_toModel] at h
  unfold castSingle
  rw [Unpacked.eq_of_toModel_eq_finite h]
  simp only [Nat.pow_eq]
  have hmag : (if 0 ≤ e then m * 2 ^ e.toNat else m / 2 ^ (-e).toNat) =
      m * 2 ^ e.toNat / 2 ^ (-e).toNat := by
    split_ifs with he
    · rw [show (-e).toNat = 0 by omega, Nat.pow_zero, Nat.div_one]
    · rw [show e.toNat = 0 by omega, Nat.pow_zero, Nat.mul_one]
  rw [hmag]
  cases s <;> rfl

/-- A zero of either sign converts to zero, clamped to the range. -/
theorem castSingle_of_unpack_zero {x : Float32} {s : Sign} (h : x.toModel.unpack = .zero s)
    (lo hi : Int) : castSingle lo hi x = max lo (min hi 0) := by
  rw [Float32.unpack_toModel] at h
  unfold castSingle
  rcases hu : Format.single.unpack x.toBits.toNat with _ | neg | ⟨neg, _ | k, e⟩ <;>
    rw [hu] at h
  · cases h
  · cases h
  · cases neg <;> simp
  · cases h

/-- Truncating a zero or a positive single of at most `n` to a range from zero gives a count of
at most `n`. -/
theorem castSingle_le_of_atMost {x : Float32} {n : Nat} (h : AtMost n x.toModel.unpack)
    {hi : Int} (hhi : 0 ≤ hi) : 0 ≤ castSingle 0 hi x ∧ castSingle 0 hi x ≤ n := by
  generalize hu : x.toModel.unpack = u at h
  cases u with
  | zero s =>
    rw [castSingle_of_unpack_zero hu]
    omega
  | finite s m e hm =>
    cases s with
    | negative => exact h.elim
    | positive =>
      rw [castSingle_of_unpack_finite hu]
      have hle : (m * 2 ^ e.toNat / 2 ^ (-e).toNat : Nat) ≤ n := by
        exact_mod_cast (truncated_le m e).trans h.2
      simp only [Sign.apply]
      omega
  | notANumber => exact h.elim
  | infinity s => exact h.elim

/-! ## Counts that are singles -/

/-- Rounding a ratio that is a whole number of steps leaves it. -/
theorem roundAt_of_eq {num den K : Nat} (hden : 0 < den) {e : Int}
    (h : (num : ℚ) / den = K * 2 ^ e) : roundAt num den e = K :=
  le_antisymm (roundAt_le_of_le hden h.le) (le_roundAt_of_le hden h.ge)

/-- A count from one to `2 ^ 24` has a quantum of at most one and is a whole number of its
steps. -/
theorem roundAt_quantum_natCast {n : Nat} (h1 : 1 ≤ n) (h24 : n ≤ 2 ^ 24) :
    Format.single.quantum n 1 ≤ 1 ∧
      (roundAt n 1 (Format.single.quantum n 1) : ℚ) * 2 ^ Format.single.quantum n 1 = n := by
  obtain ⟨hg, hgn⟩ := single_quantum_natCast h1
  generalize Format.single.quantum n 1 = g at hg hgn ⊢
  have hg1 : g ≤ 1 := by
    have : (2 : ℚ) ^ (g + 23) ≤ 2 ^ (24 : Int) := hgn.trans (by exact_mod_cast h24)
    have := (zpow_le_zpow_iff_right₀ (by norm_num : (1 : ℚ) < 2)).1 this
    omega
  refine ⟨hg1, ?_⟩
  rcases hg1.lt_or_eq with hlt | rfl
  · -- a quantum below one divides every count
    have hsteps : (n : ℚ) / (1 : Nat) = ((n * 2 ^ (-g).toNat : Nat) : ℚ) * 2 ^ g := by
      rw [Nat.cast_one, div_one]
      push_cast
      rw [← zpow_natCast, mul_assoc, ← zpow_add₀ two_ne_zero,
        show ((-g).toNat : Int) + g = 0 by omega, zpow_zero, mul_one]
    rw [roundAt_of_eq one_pos hsteps, ← hsteps, Nat.cast_one, div_one]
  · -- a quantum of one is that of `2 ^ 24` alone
    have hn : n = 2 ^ 24 := by
      have : (2 : ℚ) ^ (24 : Int) ≤ n := by simpa using hgn
      have : (2 : Nat) ^ 24 ≤ n := by exact_mod_cast this
      omega
    subst hn
    have hsteps : (((2 : Nat) ^ 24 : Nat) : ℚ) / (1 : Nat) = ((2 ^ 23 : Nat) : ℚ) * 2 ^ (1 : Int) := by
      norm_num
    rw [roundAt_of_eq one_pos hsteps]
    norm_num

/-- The counts from one to `2 ^ 24`, of either sign, are normal singles exactly. -/
theorem roundRatio_natCast_exact (neg : Bool) {n : Nat} (h1 : 1 ≤ n) (h24 : n ≤ 2 ^ 24) :
    ∃ q e, Format.single.unpack (Format.single.roundRatio neg n 1) = .finite neg q e ∧
      SingleFields q e ∧ 2 ^ 23 ≤ q ∧ (q : ℚ) * 2 ^ e = n := by
  obtain ⟨hg1, hval⟩ := roundAt_quantum_natCast h1 h24
  rcases roundRatio_single_cases neg (by omega : 0 < n) one_pos with ⟨-, h104⟩ | ⟨q, e, hu, hf, hqe⟩
  · omega
  · rw [hval] at hqe
    have hq23 : 2 ^ 23 ≤ q := by
      refine hf.normal.resolve_right fun he => ?_
      have hq : (q : ℚ) < 2 ^ 24 := by exact_mod_cast hf.significand_lt
      have hn : (1 : ℚ) ≤ n := by exact_mod_cast h1
      rw [he] at hqe
      have : (q : ℚ) * 2 ^ (-149 : Int) < 1 :=
        calc (q : ℚ) * 2 ^ (-149 : Int) < 2 ^ 24 * 2 ^ (-149 : Int) := by gcongr
          _ < 1 := by norm_num
      linarith
    exact ⟨q, e, hu, hf, hq23, hqe⟩

/-- The counts from one to `2 ^ 24` are normal singles exactly. -/
theorem singleOfNat_exact {n : Nat} (h1 : 1 ≤ n) (h24 : n ≤ 2 ^ 24) :
    ∃ q e, ∃ hq : 0 < q, (singleOfNat n).toModel.unpack = .finite .positive q e hq ∧
      SingleFields q e ∧ 2 ^ 23 ≤ q ∧ (q : ℚ) * 2 ^ e = n := by
  obtain ⟨q, e, hu, hf, hq23, hval⟩ := roundRatio_natCast_exact false h1 h24
  have hq : 0 < q := by omega
  refine ⟨q, e, hq, ?_, hf, hq23, hval⟩
  rw [singleOfNat, unpack_singleOfBits_eq, hu, Unpacked.toModel_finite e hq]
  rfl

end VoiceBench.Binary
