import Mathlib
import VoiceBench.Binary.Format

/-!
# Rounding a ratio to a single

`Format.roundRatio` encodes the value nearest to `num / den`: it takes the binary logarithm of
the ratio (`floorLog2Ratio`), fixes the exponent of the last significand bit from it
(`Format.quantum`), rounds the ratio to a multiple of that power of two with ties to an even
multiple (`roundAt`), folds a carry into the exponent and writes the fields.

The rounded multiple is within half a step of the ratio (`roundAt_bounds`), and the exponent
leaves it 24 bits, fewer only at the least exponent (`Format.quantum_bounds`). So for singles
the encoding reads back as that multiple with its fields in range, or as an infinity when the
multiple is past the largest finite single (`roundRatio_single_cases`).
-/

namespace VoiceBench

/-! ## Rounding a quotient -/

/-- Rounding raises a quotient by at most a half. -/
theorem two_mul_roundHalfEven_le (num den : Nat) :
    2 * (den * roundHalfEven num den) ≤ 2 * num + den := by
  have hdiv := Nat.div_add_mod num den
  unfold roundHalfEven
  dsimp only
  generalize num / den = q at hdiv
  generalize num % den = r at hdiv
  have hup : den * (q + 1) = den * q + den := Nat.mul_add_one den q
  split_ifs <;> omega

/-- Rounding lowers a quotient by at most a half. -/
theorem le_two_mul_roundHalfEven {den : Nat} (num : Nat) (hden : 0 < den) :
    2 * num ≤ 2 * (den * roundHalfEven num den) + den := by
  have hdiv := Nat.div_add_mod num den
  have hr := Nat.mod_lt num hden
  unfold roundHalfEven
  dsimp only
  generalize num / den = q at hdiv
  generalize num % den = r at hdiv hr
  have hup : den * (q + 1) = den * q + den := Nat.mul_add_one den q
  split_ifs <;> omega

/-- The multiple of `2 ^ e` that `roundAt` picks is within half a step of the ratio. -/
theorem roundAt_bounds (num : Nat) {den : Nat} (hden : 0 < den) (e : Int) :
    2 * ((roundAt num den e : ℚ) * 2 ^ e) ≤ 2 * (num / den) + 2 ^ e ∧
      2 * ((num : ℚ) / den) ≤ 2 * ((roundAt num den e : ℚ) * 2 ^ e) + 2 ^ e := by
  have hd : (0 : ℚ) < den := by exact_mod_cast hden
  unfold roundAt
  split_ifs with he
  · obtain ⟨k, rfl⟩ := Int.eq_ofNat_of_zero_le he
    have hD : 0 < den * Nat.pow 2 k := Nat.mul_pos hden (Nat.pow_pos (by norm_num))
    have h1 := two_mul_roundHalfEven_le num (den * Nat.pow 2 k)
    have h2 := le_two_mul_roundHalfEven num hD
    simp only [Int.toNat_natCast, zpow_natCast, Nat.pow_eq] at h1 h2 ⊢
    generalize roundHalfEven num (den * 2 ^ k) = r at h1 h2
    have h1' : (2 : ℚ) * (den * 2 ^ k * r) ≤ 2 * num + den * 2 ^ k := by exact_mod_cast h1
    have h2' : (2 : ℚ) * num ≤ 2 * (den * 2 ^ k * r) + den * 2 ^ k := by exact_mod_cast h2
    constructor
    · rw [← mul_le_mul_iff_of_pos_left hd]
      field_simp
      nlinarith
    · rw [← mul_le_mul_iff_of_pos_left hd]
      field_simp
      nlinarith
  · obtain ⟨j, hj⟩ : ∃ j : Nat, e = -(j : Int) := ⟨(-e).toNat, by omega⟩
    subst hj
    have h1 := two_mul_roundHalfEven_le (num * Nat.pow 2 j) den
    have h2 := le_two_mul_roundHalfEven (num * Nat.pow 2 j) hden
    simp only [neg_neg, Int.toNat_natCast, zpow_neg, zpow_natCast, Nat.pow_eq] at h1 h2 ⊢
    generalize roundHalfEven (num * 2 ^ j) den = r at h1 h2
    have h1' : (2 : ℚ) * (den * r) ≤ 2 * (num * 2 ^ j) + den := by exact_mod_cast h1
    have h2' : (2 : ℚ) * (num * 2 ^ j) ≤ 2 * (den * r) + den := by exact_mod_cast h2
    have hp : (0 : ℚ) < 2 ^ j := by positivity
    constructor
    · rw [← mul_le_mul_iff_of_pos_left (mul_pos hd hp)]
      field_simp
      nlinarith
    · rw [← mul_le_mul_iff_of_pos_left (mul_pos hd hp)]
      field_simp
      nlinarith

/-- A ratio at most `K` steps is rounded to at most `K` steps. -/
theorem roundAt_le_of_le {num den K : Nat} (hden : 0 < den) {e : Int}
    (h : (num : ℚ) / den ≤ K * 2 ^ e) : roundAt num den e ≤ K := by
  have hb := (roundAt_bounds num hden e).1
  have hp : (0 : ℚ) < 2 ^ e := by positivity
  have h2 : ((2 * roundAt num den e : Nat) : ℚ) < ((2 * K + 2 : Nat) : ℚ) := by
    push_cast
    nlinarith
  have := Nat.cast_lt.1 h2
  omega

/-- A ratio at least `K` steps is rounded to at least `K` steps. -/
theorem le_roundAt_of_le {num den K : Nat} (hden : 0 < den) {e : Int}
    (h : (K : ℚ) * 2 ^ e ≤ num / den) : K ≤ roundAt num den e := by
  have hb := (roundAt_bounds num hden e).2
  have hp : (0 : ℚ) < 2 ^ e := by positivity
  have h2 : ((2 * K : Nat) : ℚ) < ((2 * roundAt num den e + 2 : Nat) : ℚ) := by
    push_cast
    nlinarith
  have := Nat.cast_lt.1 h2
  omega

/-- A ratio at most `2 ^ k` steps is rounded to at most `2 ^ k` steps. -/
theorem roundAt_le_two_pow {num den : Nat} (hden : 0 < den) {e : Int} (k : Nat)
    (h : (num : ℚ) / den ≤ 2 ^ (e + k)) : roundAt num den e ≤ 2 ^ k := by
  refine roundAt_le_of_le hden ?_
  rwa [Nat.cast_pow, Nat.cast_ofNat, ← zpow_natCast, ← zpow_add₀ two_ne_zero, add_comm]

/-- A ratio at least `2 ^ k` steps is rounded to at least `2 ^ k` steps. -/
theorem two_pow_le_roundAt {num den : Nat} (hden : 0 < den) {e : Int} (k : Nat)
    (h : (2 : ℚ) ^ (e + k) ≤ num / den) : 2 ^ k ≤ roundAt num den e := by
  refine le_roundAt_of_le hden ?_
  rwa [Nat.cast_pow, Nat.cast_ofNat, ← zpow_natCast, ← zpow_add₀ two_ne_zero, add_comm]

/-! ## The binary logarithm of a ratio -/

/-- `floorLog2Ratio` is the binary logarithm of the ratio, rounded down. -/
theorem floorLog2Ratio_spec {num den : Nat} (hnum : 0 < num) (hden : 0 < den) :
    (2 : ℚ) ^ floorLog2Ratio num den ≤ num / den ∧
      (num : ℚ) / den < 2 ^ (floorLog2Ratio num den + 1) := by
  have hd : (0 : ℚ) < den := by exact_mod_cast hden
  have ha1 : (2 : ℚ) ^ num.log2 ≤ num := by exact_mod_cast Nat.log2_self_le hnum.ne'
  have ha2 : (num : ℚ) < 2 ^ (num.log2 + 1) := by exact_mod_cast Nat.lt_log2_self
  have hb1 : (2 : ℚ) ^ den.log2 ≤ den := by exact_mod_cast Nat.log2_self_le hden.ne'
  have hb2 : (den : ℚ) < 2 ^ (den.log2 + 1) := by exact_mod_cast Nat.lt_log2_self
  have hlo : (2 : ℚ) ^ ((num.log2 : Int) - den.log2 - 1) < num / den := by
    rw [lt_div_iff₀ hd, sub_sub, zpow_sub₀ two_ne_zero, zpow_natCast, ← Nat.cast_add_one,
      zpow_natCast, div_mul_eq_mul_div, div_lt_iff₀ (by positivity)]
    calc (2 : ℚ) ^ num.log2 * den < 2 ^ num.log2 * 2 ^ (den.log2 + 1) :=
          mul_lt_mul_of_pos_left hb2 (by positivity)
      _ ≤ num * 2 ^ (den.log2 + 1) := mul_le_mul_of_nonneg_right ha1 (by positivity)
  have hhi : (num : ℚ) / den < 2 ^ ((num.log2 : Int) - den.log2 + 1) := by
    rw [div_lt_iff₀ hd, sub_add_eq_add_sub, zpow_sub₀ two_ne_zero, ← Nat.cast_add_one, zpow_natCast,
      zpow_natCast, div_mul_eq_mul_div, lt_div_iff₀ (by positivity)]
    nlinarith
  unfold floorLog2Ratio
  dsimp only
  generalize hk : (num.log2 : Int) - den.log2 = k at hlo hhi
  split_ifs with hk0 hle hle'
  · -- at or above `2 ^ k`: the estimate stands
    obtain ⟨j, rfl⟩ := Int.eq_ofNat_of_zero_le hk0
    have h : (den : ℚ) * 2 ^ j ≤ num := by exact_mod_cast hle
    refine ⟨?_, hhi⟩
    rw [zpow_natCast, le_div_iff₀ hd]
    linarith
  · -- below `2 ^ k`: one less
    obtain ⟨j, rfl⟩ := Int.eq_ofNat_of_zero_le hk0
    have h : (num : ℚ) < den * 2 ^ j := by exact_mod_cast Nat.lt_of_not_le hle
    refine ⟨hlo.le, ?_⟩
    rw [sub_add_cancel, zpow_natCast, div_lt_iff₀ hd]
    linarith
  · obtain ⟨j, hj⟩ : ∃ j : Nat, k = -(j : Int) := ⟨(-k).toNat, by omega⟩
    subst hj
    have h0 : den ≤ num * 2 ^ j := by simpa using hle'
    have h : (den : ℚ) ≤ num * 2 ^ j := by exact_mod_cast h0
    refine ⟨?_, hhi⟩
    rw [zpow_neg, zpow_natCast, le_div_iff₀ hd, inv_mul_le_iff₀ (by positivity)]
    linarith
  · obtain ⟨j, hj⟩ : ∃ j : Nat, k = -(j : Int) := ⟨(-k).toNat, by omega⟩
    subst hj
    have h0 : num * 2 ^ j < den := by simpa using Nat.lt_of_not_le hle'
    have h : (num : ℚ) * 2 ^ j < den := by exact_mod_cast h0
    refine ⟨hlo.le, ?_⟩
    rw [sub_add_cancel, zpow_neg, zpow_natCast, div_lt_iff₀ hd, lt_inv_mul_iff₀ (by positivity)]
    linarith

end VoiceBench

namespace VoiceBench.Binary

/-! ## The exponent of a rounded ratio -/

/-- At the quantum the ratio has at most `precision` bits, and all of them unless the quantum
is the least one. -/
theorem Format.quantum_bounds (f : Format) {num den : Nat} (hnum : 0 < num) (hden : 0 < den) :
    (num : ℚ) / den < 2 ^ (f.quantum num den + f.fractionBits + 1) ∧
      (f.quantum num den = f.minQuantum ∨
        (2 : ℚ) ^ (f.quantum num den + f.fractionBits) ≤ num / den) := by
  obtain ⟨hlo, hhi⟩ := floorLog2Ratio_spec hnum hden
  unfold Format.quantum
  constructor
  · refine hhi.trans_le (zpow_le_zpow_right₀ (by norm_num) ?_)
    have := le_max_left (floorLog2Ratio num den - f.fractionBits) f.minQuantum
    omega
  · rcases max_cases (floorLog2Ratio num den - f.fractionBits) f.minQuantum with ⟨h, -⟩ | ⟨h, -⟩
    · right
      rw [h, sub_add_cancel]
      exact hlo
    · left
      exact h

/-! ## Singles -/

/-- The significand and exponent of a finite single: at most 24 bits, the top one set unless
the exponent is the least, and an exponent whose biased field is below all ones. -/
structure SingleFields (m : Nat) (e : Int) : Prop where
  significand_lt : m < 2 ^ 24
  exponent_ge : -149 ≤ e
  exponent_le : e ≤ 104
  normal : 2 ^ 23 ≤ m ∨ e = -149

namespace Format
@[simp] theorem single_fractionBits : single.fractionBits = 23 := rfl
@[simp] theorem single_minQuantum : single.minQuantum = -149 := rfl
@[simp] theorem single_bias : single.bias = 127 := rfl
@[simp] theorem single_precision : single.precision = 24 := rfl
@[simp] theorem single_signBit : single.signBit = 2 ^ 31 := rfl
@[simp] theorem single_maxField : single.maxField = 255 := rfl
@[simp] theorem single_exponentBits : single.exponentBits = 8 := rfl
end Format

/-- An encoding read from its sign, exponent field and fraction field. -/
theorem unpack_single_of_fields (neg : Bool) (F f : Nat) (hF : F < 255) (hf : f < 2 ^ 23) :
    Format.single.unpack (Format.single.signPart neg + (F * 2 ^ 23 + f)) =
      if F = 0 then .finite neg f (-149)
      else .finite neg (f + 2 ^ 23) (-149 + ((F - 1 : Nat) : Int)) := by
  have hfrac : (Format.single.signPart neg + (F * 2 ^ 23 + f)) % 2 ^ 23 = f := by
    cases neg <;> simp only [Format.signPart, Format.single_signBit, Bool.false_eq_true, ↓reduceIte] <;> omega
  have hfield : (Format.single.signPart neg + (F * 2 ^ 23 + f)) / 2 ^ 23 % 2 ^ 8 = F := by
    cases neg <;> simp only [Format.signPart, Format.single_signBit, Bool.false_eq_true, ↓reduceIte] <;> omega
  have hsign : ((Format.single.signPart neg + (F * 2 ^ 23 + f)) / 2 ^ 31 % 2 == 1) = neg := by
    cases neg <;> simp only [Format.signPart, Format.single_signBit, Bool.false_eq_true, ↓reduceIte] <;> simp <;> omega
  unfold Format.unpack
  dsimp only
  rw [Format.single_maxField, Format.single_signBit, Format.single_exponentBits,
    Format.single_minQuantum, Format.single_fractionBits]
  simp only [Nat.pow_eq, hfrac, hfield, hsign, beq_iff_eq]
  rw [if_neg (show ¬F = 255 by omega)]

/-- The encoding of a finite single reads back as its fields. -/
theorem unpack_encoding {neg : Bool} {m : Nat} {e : Int} (h : SingleFields m e) :
    Format.single.unpack (if m < 2 ^ 23 then Format.single.signPart neg + m
      else Format.single.signPart neg + ((e - -149).toNat + 1) * 2 ^ 23 + (m - 2 ^ 23)) =
      .finite neg m e := by
  obtain ⟨hm, hlo, hhi, hnorm⟩ := h
  split_ifs with hsub
  · -- below the normal range: exponent field zero
    have he : e = -149 := hnorm.resolve_left (by omega)
    have := unpack_single_of_fields neg 0 m (by norm_num) hsub
    rw [Nat.zero_mul, Nat.zero_add, if_pos rfl] at this
    rw [this, he]
  · have := unpack_single_of_fields neg ((e - -149).toNat + 1) (m - 2 ^ 23)
      (by omega) (by omega)
    rw [if_neg (by omega), Nat.sub_add_cancel (by omega)] at this
    rw [Nat.add_assoc, this]
    congr 1
    omega

/-- The encoding of an infinity reads back as one. -/
theorem unpack_single_infinity (neg : Bool) :
    Format.single.unpack (Format.single.infinity neg) = .infinite neg := by
  cases neg <;> rfl

/-- `roundRatio` writes the rounded multiple of the quantum: read back, it is an infinity, when
the exponent is past the largest finite single, or that multiple with its fields in range. -/
theorem roundRatio_single_cases (neg : Bool) {num den : Nat} (hnum : 0 < num) (hden : 0 < den) :
    (Format.single.unpack (Format.single.roundRatio neg num den) = .infinite neg ∧
        104 ≤ Format.single.quantum num den) ∨
      ∃ m e, Format.single.unpack (Format.single.roundRatio neg num den) = .finite neg m e ∧
        SingleFields m e ∧
        (m : ℚ) * 2 ^ e = roundAt num den (Format.single.quantum num den) *
          2 ^ Format.single.quantum num den := by
  obtain ⟨hhi, hlo⟩ := Format.single.quantum_bounds hnum hden
  rw [Format.single_fractionBits] at hhi hlo
  rw [Format.single_minQuantum] at hlo
  push_cast at hhi hlo
  have hge : -149 ≤ Format.single.quantum num den := le_max_right _ _
  have hq : roundAt num den (Format.single.quantum num den) ≤ 2 ^ 24 :=
    roundAt_le_two_pow hden 24 (hhi.le.trans_eq (by rw [add_assoc]; norm_num))
  have hnorm : Format.single.quantum num den = -149 ∨
      2 ^ 23 ≤ roundAt num den (Format.single.quantum num den) :=
    hlo.imp id fun h => two_pow_le_roundAt hden 23 (by exact_mod_cast h)
  unfold Format.roundRatio
  simp only [hnum.ne', hden.ne', or_self, if_false, Format.single_precision,
    Format.single_fractionBits, Format.single_bias, Format.single_minQuantum, Nat.pow_eq, beq_iff_eq]
  generalize Format.single.quantum num den = E at hge hq hnorm ⊢
  generalize roundAt num den E = q at hq hnorm ⊢
  have hval : ((if q = 2 ^ 24 then q / 2 else q : Nat) : ℚ) * 2 ^ (if q = 2 ^ 24 then E + 1 else E) =
      q * 2 ^ E := by
    split_ifs with hc
    · subst hc
      rw [zpow_add_one₀ two_ne_zero]
      push_cast
      ring
    · rfl
  generalize hq' : (if q = 2 ^ 24 then q / 2 else q) = q' at hval ⊢
  generalize he' : (if q = 2 ^ 24 then E + 1 else E) = e' at hval ⊢
  have hfields : e' + 23 ≤ 127 → SingleFields q' e' := fun hle => by
    split_ifs at hq' he' with hc <;> subst hq' he'
    · subst hc
      exact ⟨by norm_num, by omega, by omega, Or.inl (by norm_num)⟩
    · exact ⟨by omega, hge, by omega, hnorm.symm.imp_right id⟩
  by_cases hover : e' + ((23 : Nat) : Int) > ((127 : Nat) : Int)
  · left
    rw [if_pos hover]
    refine ⟨unpack_single_infinity neg, ?_⟩
    split_ifs at he' <;> omega
  · rw [if_neg hover]
    exact Or.inr ⟨q', e', unpack_encoding (hfields (by omega)), hfields (by omega), hval⟩

end VoiceBench.Binary
