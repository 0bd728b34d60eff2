import Mathlib
import VoiceBench.Proofs.Binary.Arithmetic
import VoiceBench.Proofs.Binary.Order

/-!
# Floats in the unit interval

A single in `[0, 1)` is a zero or a positive value at most `1 - 2⁻²⁴`, the single just below
one (`Float32.unpack_of_mem_Ico`). Multiplying a single of at least one by it rounds to a single
strictly below the first factor (`Float32.mul_lt_of_mem_Ico`): the exact product falls short by
at least `2⁻²⁴` of the factor, more than half a step of the result.

`singleOfNat n` is `n` rounded to nearest, so no single lies strictly between them: a single
below `singleOfNat n` is below `n` (`lt_natCast_of_lt_roundAt`, `unpack_singleOfNat`).

A double in `[0, 1]` converts to a single in `[0, 1]` (`singleOfDouble_mem_Icc`): rounding never
goes past the single one, which the double one also is. Sums of squares of doubles are never
below zero, nor are their quotients by a double above zero (`Float.notBelowZero_sumSquares`,
`Float.notBelowZero_div`).
-/

namespace VoiceBench.Binary

open Float.Model UnpackedFloat

/-! ## Reading finite values -/

/-- A reading of the library that the float arithmetic sees as a finite value is that value. -/
theorem Unpacked.eq_of_toModel_eq_finite {u : Unpacked} {s : Sign} {m : Nat} {e : Int}
    {hm : 0 < m} (h : u.toModel = .finite s m e hm) : u = .finite (s == .negative) m e := by
  rcases u with _ | neg | ⟨neg, _ | k, e'⟩
  · cases h
  · cases h
  · cases h
  · simp only [Unpacked.toModel, UnpackedFloat.finite.injEq] at h
    obtain ⟨rfl, rfl, rfl⟩ := h
    cases neg <;> rfl

/-- A single is read from its low 32 bits. -/
theorem unpack_single_mod (bits : Nat) :
    Format.single.unpack (bits % 2 ^ 32) = Format.single.unpack bits := by
  unfold Format.unpack
  simp only [Format.single_fractionBits, Format.single_exponentBits, Format.single_signBit,
    Nat.pow_eq]
  have hfrac : bits % 2 ^ 32 % 2 ^ 23 = bits % 2 ^ 23 := by omega
  have hfield : bits % 2 ^ 32 / 2 ^ 23 % 2 ^ 8 = bits / 2 ^ 23 % 2 ^ 8 := by omega
  have hsign : bits % 2 ^ 32 / 2 ^ 31 % 2 = bits / 2 ^ 31 % 2 := by omega
  simp only [hfrac, hfield, hsign]
  rfl

/-- A single built from an encoding is read as that encoding. -/
theorem unpack_singleOfBits_eq (bits : Nat) :
    (singleOfBits bits).toModel.unpack = (Format.single.unpack bits).toModel := by
  rw [unpack_singleOfBits, unpack_single_mod]

/-- Every finite single is read with its fields in range. -/
theorem singleFields_of_unpack {bits : Nat} {neg : Bool} {m : Nat} {e : Int}
    (h : Format.single.unpack bits = .finite neg m e) : SingleFields m e := by
  unfold Format.unpack at h
  simp only [Format.single_fractionBits, Format.single_exponentBits, Format.single_maxField,
    Format.single_minQuantum, Nat.pow_eq, beq_iff_eq] at h
  have hfield : bits / 2 ^ 23 % 2 ^ 8 < 2 ^ 8 := Nat.mod_lt _ (by norm_num)
  have hfrac : bits % 2 ^ 23 < 2 ^ 23 := Nat.mod_lt _ (by norm_num)
  split_ifs at h with hmax hzero
  · obtain ⟨-, rfl, rfl⟩ := Unpacked.finite.inj h
    exact ⟨by omega, le_rfl, by omega, Or.inr rfl⟩
  · obtain ⟨-, rfl, rfl⟩ := Unpacked.finite.inj h
    exact ⟨by omega, by omega, by omega, Or.inl (by omega)⟩

/-- The significand of a finite double has at most 53 bits. -/
theorem significand_lt_of_unpack_double {bits : Nat} {neg : Bool} {m : Nat} {e : Int}
    (h : Format.double.unpack bits = .finite neg m e) : m < 2 ^ 53 := by
  unfold Format.unpack at h
  simp only [show Nat.pow 2 Format.double.fractionBits = 2 ^ 52 from rfl] at h
  have hfrac : bits % 2 ^ 52 < 2 ^ 52 := Nat.mod_lt _ (by norm_num)
  split_ifs at h <;> obtain ⟨-, rfl, -⟩ := Unpacked.finite.inj h <;> omega

/-- `scaleByTwo` writes `m * 2 ^ k` as a ratio with a positive denominator. -/
theorem scaleByTwo_spec (m : Nat) (k : Int) :
    0 < (scaleByTwo m k).2 ∧ ((scaleByTwo m k).1 : ℚ) / (scaleByTwo m k).2 = m * 2 ^ k := by
  unfold scaleByTwo
  split_ifs with hk
  · obtain ⟨j, rfl⟩ := Int.eq_ofNat_of_zero_le hk
    simp
  · obtain ⟨j, hj⟩ : ∃ j : Nat, k = -(j : Int) := ⟨(-k).toNat, by omega⟩
    subst hj
    refine ⟨Nat.pow_pos (by norm_num), ?_⟩
    simp [div_eq_mul_inv]

theorem scaleByTwo_fst_eq_zero_iff (m : Nat) (k : Int) : (scaleByTwo m k).1 = 0 ↔ m = 0 := by
  unfold scaleByTwo
  split_ifs <;> simp

namespace Float32

/-- A finite single seen by the float arithmetic has the fields of a single. -/
theorem singleFields_of_unpack_eq {x : Float32} {s : Sign} {m : Nat} {e : Int} {hm : 0 < m}
    (h : x.toModel.unpack = .finite s m e hm) : SingleFields m e := by
  rw [unpack_toModel] at h
  exact singleFields_of_unpack (Unpacked.eq_of_toModel_eq_finite h)

end Float32

/-! ## Comparing with one -/

theorem UnpackedFloat.notANumber_lt (a : UnpackedFloat) : UnpackedFloat.notANumber.lt a = false := by
  cases a <;> rfl

theorem UnpackedFloat.lt_notANumber (a : UnpackedFloat) : a.lt .notANumber = false := by
  cases a <;> rfl

/-- A single above another is no NaN. -/
theorem Float32.isNaN_eq_false_of_lt {x y : Float32} (h : x < y) : y.isNaN = false := by
  have h' : x.toModel.unpack.lt y.toModel.unpack = true := of_decide_eq_true h
  show y.toModel.unpack.isNaN = false
  cases hu : y.toModel.unpack with
  | notANumber =>
    rw [hu, UnpackedFloat.lt_notANumber] at h'
    cases h'
  | _ => rfl

/-- A single strictly below one: below the exponent of one, or at it with a smaller
significand. -/
theorem value_le_of_lt_one {m : Nat} {e : Int} (h : SingleFields m e)
    (hlt : e < -23 ∨ e = -23 ∧ m < 2 ^ 23) : (m : ℚ) * 2 ^ e ≤ 1 - 2 ^ (-24 : Int) := by
  rcases hlt with he | ⟨rfl, hm23⟩
  · -- at most 24 bits below the exponent `-24`
    have hm : (m : ℚ) + 1 ≤ 2 ^ 24 := by exact_mod_cast h.significand_lt
    calc (m : ℚ) * 2 ^ e ≤ (2 ^ 24 - 1) * 2 ^ (-24 : Int) := by
          gcongr
          · linarith
          · norm_num
          · omega
      _ = 1 - 2 ^ (-24 : Int) := by norm_num
  · have hm : (m : ℚ) + 1 ≤ 2 ^ 23 := by exact_mod_cast hm23
    calc (m : ℚ) * 2 ^ (-23 : Int) ≤ (2 ^ 23 - 1) * 2 ^ (-23 : Int) := by
          gcongr
          linarith
      _ ≤ 1 - 2 ^ (-24 : Int) := by norm_num

/-- A single at most one has a smaller exponent than one, or the exponent of one and a
significand at most its significand. -/
theorem lt_one_of_value_le {m : Nat} {e : Int} (h : SingleFields m e)
    (hle : (m : ℚ) * 2 ^ e ≤ 1) : e < -23 ∨ e = -23 ∧ m ≤ 2 ^ 23 := by
  rcases lt_trichotomy e (-23) with hlt | rfl | hgt
  · exact Or.inl hlt
  · refine Or.inr ⟨rfl, ?_⟩
    by_contra hm
    have hm' : (2 : ℚ) ^ 23 < m := by exact_mod_cast Nat.lt_of_not_le hm
    have h23 : (2 : ℚ) ^ (-23 : Int) = 1 / 2 ^ 23 := by norm_num
    rw [h23, mul_one_div, div_le_one (by positivity)] at hle
    linarith
  · -- above the exponent of one a single is normal, so at least two
    have hm : (2 : ℚ) ^ 23 ≤ m := by exact_mod_cast h.normal.resolve_right (by omega)
    have : (2 : ℚ) ≤ m * 2 ^ e :=
      calc (2 : ℚ) = 2 ^ 23 * 2 ^ (-22 : Int) := by norm_num
        _ ≤ m * 2 ^ e := by
          gcongr
          · norm_num
          · omega
    linarith

namespace Float32

/-- A single in `[0, 1)` is a zero or a positive single at most the one just below one. -/
theorem unpack_of_mem_Ico {x : Float32} (h0 : 0 ≤ x) (h1 : x < 1) :
    (∃ s, x.toModel.unpack = .zero s) ∨
      ∃ m e, ∃ hm : 0 < m, x.toModel.unpack = .finite .positive m e hm ∧ SingleFields m e ∧
        (m : ℚ) * 2 ^ e ≤ 1 - 2 ^ (-24 : Int) := by
  have h0' : (UnpackedFloat.zero .positive).le x.toModel.unpack = true := of_decide_eq_true h0
  have h1' : x.toModel.unpack.lt (.finite .positive (2 ^ 23) (-23) (by decide)) = true :=
    of_decide_eq_true h1
  generalize hu : x.toModel.unpack = u at h0' h1' ⊢
  cases u with
  | notANumber => simp [UnpackedFloat.notANumber_lt] at h1'
  | zero s => exact Or.inl ⟨s, rfl⟩
  | infinity s =>
    cases s
    · cases h0'
    · cases h1'
  | finite s m e hm =>
    cases s
    · cases h0'
    · -- below one in the order of keys: a smaller exponent, or a smaller significand
      rw [lt_iff_orderKey_lt rfl rfl] at h1'
      simp only [orderKey, Prod.Lex.toLex_lt_toLex, lt_self_iff_false, true_and, false_or] at h1'
      have hfields := singleFields_of_unpack_eq hu
      refine Or.inr ⟨m, e, hm, rfl, hfields, value_le_of_lt_one hfields ?_⟩
      omega


/-- A zero, or a positive single at most one, lies in `[0, 1]`. -/
theorem mem_Icc_of_unpack {x : Float32}
    (h : (∃ s, x.toModel.unpack = .zero s) ∨
      ∃ m e, ∃ hm : 0 < m, x.toModel.unpack = .finite .positive m e hm ∧ SingleFields m e ∧
        (m : ℚ) * 2 ^ e ≤ 1) :
    0 ≤ x ∧ x ≤ 1 := by
  refine ⟨decide_eq_true ?_, decide_eq_true ?_⟩
  · show (UnpackedFloat.zero .positive).le x.toModel.unpack = true
    rcases h with ⟨s, hs⟩ | ⟨m, e, hm, hx, -, -⟩
    · rw [hs]
      cases s <;> rfl
    · rw [hx]
      rfl
  · show x.toModel.unpack.le (.finite .positive (2 ^ 23) (-23) (by decide)) = true
    rcases h with ⟨s, hs⟩ | ⟨m, e, hm, hx, hf, hv⟩
    · rw [hs]
      cases s <;> rfl
    · -- at most one in the order of keys
      rw [hx, le_iff_orderKey_le rfl rfl]
      simp only [orderKey, Prod.Lex.toLex_le_toLex, lt_self_iff_false, true_and, false_or]
      rcases lt_one_of_value_le hf hv with he | ⟨rfl, hm23⟩
      · exact Or.inl he
      · exact Or.inr ⟨rfl, by exact_mod_cast hm23⟩

end Float32

/-! ## A product below its first factor -/

/-- The target exponent of a product below `q * 2 ^ e` with `q` of 24 bits is at most `e`, and
at most `e - 1` when `q` is the least significand of 24 bits. -/
theorem targetExponent_le_of_lt {M q : Nat} {E e : Int} (hM : 0 < M) (hq' : q < 2 ^ 24)
    (he : -148 ≤ e) (hlt : (M : ℚ) * 2 ^ E < q * 2 ^ e) :
    Format.binary32.targetExponent (totalExponent M E) ≤ e ∧
      (q = 2 ^ 23 → Format.binary32.targetExponent (totalExponent M E) ≤ e - 1) := by
  rw [targetExponent_binary32, totalExponent]
  rcases max_cases ((M.log2 : Int) + 1 + E - 24) (-149) with ⟨ht, -⟩ | ⟨ht, -⟩ <;> rw [ht]
  · -- the exponent of the leading bit is below that of the bound
    have hlead : (2 : ℚ) ^ ((M.log2 : Int) + E) ≤ M * 2 ^ E := by
      rw [zpow_add₀ two_ne_zero, zpow_natCast]
      gcongr
      exact_mod_cast Nat.log2_self_le hM.ne'
    have hq2 : (q : ℚ) * 2 ^ e ≤ 2 ^ (24 + e) := by
      rw [zpow_add₀ two_ne_zero]
      gcongr
      exact_mod_cast hq'.le
    have h24 : (M.log2 : Int) + E < 24 + e :=
      (zpow_lt_zpow_iff_right₀ (by norm_num : (1 : ℚ) < 2)).1 (hlead.trans_lt (hlt.trans_le hq2))
    refine ⟨by omega, fun hq => ?_⟩
    have h23 : (M.log2 : Int) + E < 23 + e := by
      refine (zpow_lt_zpow_iff_right₀ (by norm_num : (1 : ℚ) < 2)).1 (hlead.trans_lt ?_)
      subst hq
      rw [zpow_add₀ two_ne_zero]
      exact_mod_cast hlt
    omega
  · exact ⟨by omega, fun _ => by omega⟩

/-- The product of a significand `q` of 24 bits at exponent `e` and a value `mo * 2 ^ eo` at most
`1 - 2⁻²⁴` is rounded below `q * 2 ^ e`: the exact product is short of it by at least
`q * 2 ^ (e - 24)`, more than half a step at the target exponent. -/
theorem roundAt_mul_lt {q mo : Nat} {e eo : Int} (hq : 2 ^ 23 ≤ q) (hq' : q < 2 ^ 24)
    (he : -148 ≤ e) (hmo : 0 < mo) (hv : (mo : ℚ) * 2 ^ eo ≤ 1 - 2 ^ (-24 : Int)) :
    (roundAt (q * mo) 1 (Format.binary32.targetExponent (totalExponent (q * mo) (e + eo)) -
        (e + eo)) : ℚ) * 2 ^ Format.binary32.targetExponent (totalExponent (q * mo) (e + eo)) <
      q * 2 ^ e := by
  have hN : (0 : ℚ) < q * 2 ^ e := by
    have : (0 : ℚ) < q := by exact_mod_cast (Nat.pos_of_ne_zero (by omega) : 0 < q)
    positivity
  have hX : ((q * mo : Nat) : ℚ) * 2 ^ (e + eo) = q * 2 ^ e * (mo * 2 ^ eo) := by
    push_cast
    rw [zpow_add₀ two_ne_zero]
    ring
  have hXle : ((q * mo : Nat) : ℚ) * 2 ^ (e + eo) ≤ q * 2 ^ e - q * 2 ^ e * 2 ^ (-24 : Int) := by
    rw [hX, ← mul_one_sub]
    exact mul_le_mul_of_nonneg_left hv hN.le
  have hXlt : ((q * mo : Nat) : ℚ) * 2 ^ (e + eo) < q * 2 ^ e := by
    have : (0 : ℚ) < q * 2 ^ e * 2 ^ (-24 : Int) := by positivity
    linarith
  obtain ⟨hT, hT23⟩ := targetExponent_le_of_lt (Nat.mul_pos (by omega) hmo) hq' he hXlt
  generalize Format.binary32.targetExponent (totalExponent (q * mo) (e + eo)) = t at hT hT23 ⊢
  have hround : 2 * ((roundAt (q * mo) 1 (t - (e + eo)) : ℚ) * 2 ^ t) ≤
      2 * (((q * mo : Nat) : ℚ) * 2 ^ (e + eo)) + 2 ^ t := by
    have hb := (roundAt_bounds (q * mo) one_pos (t - (e + eo))).1
    have hshift : (2 : ℚ) ^ (t - (e + eo)) * 2 ^ (e + eo) = 2 ^ t := by
      rw [← zpow_add₀ two_ne_zero, sub_add_cancel]
    calc 2 * ((roundAt (q * mo) 1 (t - (e + eo)) : ℚ) * 2 ^ t)
        = 2 * ((roundAt (q * mo) 1 (t - (e + eo)) : ℚ) * 2 ^ (t - (e + eo))) * 2 ^ (e + eo) := by
          rw [← hshift]
          ring
      _ ≤ (2 * (((q * mo : Nat) : ℚ) / ((1 : Nat) : ℚ)) + 2 ^ (t - (e + eo))) * 2 ^ (e + eo) :=
          mul_le_mul_of_nonneg_right hb (by positivity)
      _ = 2 * (((q * mo : Nat) : ℚ) * 2 ^ (e + eo)) + 2 ^ t := by
          rw [Nat.cast_one, div_one, add_mul, hshift]
          ring
  have hgap : (2 : ℚ) ^ t < 2 * (q * 2 ^ e * 2 ^ (-24 : Int)) := by
    have hone : (2 : ℚ) * (2 ^ 23 * 2 ^ e * 2 ^ (-24 : Int)) = 2 ^ e := by
      rw [show (2 : ℚ) * (2 ^ 23 * 2 ^ e * 2 ^ (-24 : Int)) = 2 ^ e * (2 * 2 ^ 23 * 2 ^ (-24 : Int))
        by ring]
      norm_num
    rcases hq.lt_or_eq with hgt | heq
    · calc (2 : ℚ) ^ t ≤ 2 ^ e := zpow_le_zpow_right₀ (by norm_num) hT
        _ = 2 * (2 ^ 23 * 2 ^ e * 2 ^ (-24 : Int)) := hone.symm
        _ < 2 * (q * 2 ^ e * 2 ^ (-24 : Int)) := by
          gcongr
          exact_mod_cast hgt
    · calc (2 : ℚ) ^ t ≤ 2 ^ (e - 1) := zpow_le_zpow_right₀ (by norm_num) (hT23 heq.symm)
        _ < 2 ^ e := zpow_lt_zpow_right₀ (by norm_num) (by omega)
        _ = 2 * (q * 2 ^ e * 2 ^ (-24 : Int)) := by
          rw [← hone, ← heq]
          push_cast
          ring
  linarith

/-- A value below a finite single, with a significand of at most 24 bits that is normal above
the least exponent, has an exponent a single can hold. -/
theorem exponent_le_of_lt_single {m q : Nat} {e' e : Int} (hnorm : 2 ^ 23 ≤ m ∨ e' = -149)
    (hq : SingleFields q e) (hlt : (m : ℚ) * 2 ^ e' < q * 2 ^ e) : e' ≤ 104 := by
  by_contra hgt
  have hm : (2 : ℚ) ^ 23 ≤ m := by exact_mod_cast hnorm.resolve_right (by omega)
  have hq' : (q : ℚ) ≤ 2 ^ 24 := by exact_mod_cast hq.significand_lt.le
  have hlo : (2 : ℚ) ^ (128 : Int) ≤ m * 2 ^ e' :=
    calc (2 : ℚ) ^ (128 : Int) = 2 ^ 23 * 2 ^ (105 : Int) := by norm_num
      _ ≤ m * 2 ^ e' := by
        gcongr
        · norm_num
        · omega
  have hhi : (q : ℚ) * 2 ^ e ≤ 2 ^ (128 : Int) :=
    calc (q : ℚ) * 2 ^ e ≤ 2 ^ 24 * 2 ^ (104 : Int) := by
          gcongr
          · norm_num
          · exact hq.exponent_le
      _ = 2 ^ (128 : Int) := by norm_num
  linarith

namespace Float32

/-- A single of at least one times a single in `[0, 1)` is a zero or a positive single strictly
below the first factor. -/
theorem mul_lt_of_mem_Ico {x y : Float32} {q : Nat} {e : Int} {hq : 0 < q}
    (hx : x.toModel.unpack = .finite .positive q e hq) (he : -148 ≤ e) (hy0 : 0 ≤ y) (hy1 : y < 1) :
    (∃ s, (x * y).toModel.unpack = .zero s) ∨
      ∃ m e', ∃ hm : 0 < m, (x * y).toModel.unpack = .finite .positive m e' hm ∧
        SingleFields m e' ∧ (m : ℚ) * 2 ^ e' < q * 2 ^ e := by
  have hxf := singleFields_of_unpack_eq hx
  have hq23 : 2 ^ 23 ≤ q := hxf.normal.resolve_right (by omega)
  have hmul : (x * y).toModel.unpack = UnpackedFloat.unpack .binary32 (UnpackedFloat.pack .binary32
      (UnpackedFloat.mul .binary32 x.toModel.unpack y.toModel.unpack)) := rfl
  have hs : Sign.positive * Sign.positive = .positive := rfl
  rcases unpack_of_mem_Ico hy0 hy1 with ⟨s, hys⟩ | ⟨mo, eo, hmo, hys, -, hyv⟩
  · -- a zero factor gives a zero
    refine Or.inl ⟨Sign.positive * s, ?_⟩
    rw [hmul, hx, hys]
    exact unpack_packedZero
  · -- the exponent of the exact product is not above the target: it has at least 24 bits
    have hlog : 23 ≤ (q * mo).log2 :=
      (Nat.le_log2 (Nat.mul_pos hq hmo).ne').2 (hq23.trans (Nat.le_mul_of_pos_right q hmo))
    have hE : e + eo ≤ Format.binary32.targetExponent (totalExponent (q * mo) (e + eo)) := by
      rw [targetExponent_binary32, totalExponent]
      omega
    rcases roundWithAccuracy_binary32 .positive (Nat.mul_pos hq hmo) hE with
      ⟨-, hzero⟩ | ⟨m, e', hm, hfin, hm24, he', hnorm, hval⟩
    · refine Or.inl ⟨.positive, ?_⟩
      rw [hmul, hx, hys]
      simp only [UnpackedFloat.mul, hs, hzero]
      exact unpack_packedZero
    · have hlt : (m : ℚ) * 2 ^ e' < q * 2 ^ e := hval ▸ roundAt_mul_lt hq23 hxf.significand_lt he hmo hyv
      have hfields : SingleFields m e' := ⟨hm24, he', exponent_le_of_lt_single hnorm hxf hlt, hnorm⟩
      refine Or.inr ⟨m, e', hm, ?_, hfields, hlt⟩
      rw [hmul, hx, hys]
      simp only [UnpackedFloat.mul, hs, hfin]
      exact unpack_pack_binary32 _ hm hfields

end Float32

/-! ## Rounding a natural number -/

/-- The quantum of a natural number `n ≥ 1` is at least `-23`, and `n` has 24 bits at it. -/
theorem single_quantum_natCast {n : Nat} (hn : 1 ≤ n) :
    -23 ≤ Format.single.quantum n 1 ∧ (2 : ℚ) ^ (Format.single.quantum n 1 + 23) ≤ n := by
  obtain ⟨-, hhi⟩ := floorLog2Ratio_spec (by omega : 0 < n) one_pos
  have hk : 0 ≤ floorLog2Ratio n 1 := by
    by_contra hneg
    have hle : (2 : ℚ) ^ (floorLog2Ratio n 1 + 1) ≤ 1 := zpow_le_one_of_nonpos₀ (by norm_num) (by omega)
    have : (1 : ℚ) ≤ n := by exact_mod_cast hn
    rw [Nat.cast_one, div_one] at hhi
    linarith
  have hq : -23 ≤ Format.single.quantum n 1 := by
    unfold Format.quantum
    simp only [Format.single_fractionBits, Format.single_minQuantum]
    omega
  obtain ⟨-, hlo⟩ := Format.single.quantum_bounds (by omega : 0 < n) one_pos
  rw [Format.single_minQuantum, Format.single_fractionBits, Nat.cast_one, div_one] at hlo
  exact ⟨hq, hlo.resolve_left (by omega)⟩

/-- `singleOfNat n` rounds `n` to nearest, so a single of at most 24 bits below it is below
`n`: such a single at least `n` would be a whole number of steps of `n`'s quantum, at least one
step below `singleOfNat n`, which is within half a step of `n`. -/
theorem lt_natCast_of_lt_roundAt {n m : Nat} {e : Int} (hn : 1 ≤ n) (hm : m < 2 ^ 24)
    (hlt : (m : ℚ) * 2 ^ e <
      roundAt n 1 (Format.single.quantum n 1) * 2 ^ Format.single.quantum n 1) :
    (m : ℚ) * 2 ^ e < n := by
  obtain ⟨-, hgn⟩ := single_quantum_natCast hn
  have hb := (roundAt_bounds n one_pos (Format.single.quantum n 1)).1
  rw [Nat.cast_one, div_one] at hb
  generalize Format.single.quantum n 1 = g at hgn hb hlt
  generalize roundAt n 1 g = c at hb hlt
  by_contra hge
  push Not at hge
  have hm' : (m : ℚ) < 2 ^ 24 := by exact_mod_cast hm
  have heg : g ≤ e := by
    have : (2 : ℚ) ^ (g + 23) < 2 ^ (e + 24) :=
      calc (2 : ℚ) ^ (g + 23) ≤ m * 2 ^ e := hgn.trans hge
        _ < 2 ^ 24 * 2 ^ e := by gcongr
        _ = 2 ^ (e + 24) := by rw [zpow_add₀ two_ne_zero, mul_comm]; norm_num
    have := (zpow_lt_zpow_iff_right₀ (by norm_num : (1 : ℚ) < 2)).1 this
    omega
  obtain ⟨d, hd⟩ : ∃ d : Nat, e = g + d := ⟨(e - g).toNat, by omega⟩
  have hsteps : (m : ℚ) * 2 ^ e = ((m * 2 ^ d : Nat) : ℚ) * 2 ^ g := by
    rw [hd, zpow_add₀ two_ne_zero, zpow_natCast]
    push_cast
    ring
  rw [hsteps] at hlt hge
  have hc : m * 2 ^ d + 1 ≤ c := by
    have := lt_of_mul_lt_mul_right hlt (by positivity)
    exact_mod_cast this
  have hc' : ((m * 2 ^ d : Nat) : ℚ) + 1 ≤ c := by exact_mod_cast hc
  have hstep := mul_le_mul_of_nonneg_right hc' (by positivity : (0 : ℚ) ≤ 2 ^ g)
  have hpos : (0 : ℚ) < 2 ^ g := by positivity
  linarith

/-- `singleOfNat n` for `n ≥ 1` is the positive infinity, for `n ≥ 2 ^ 127`, or a positive single
of at least one whose value is `n` rounded at its quantum. -/
theorem unpack_singleOfNat {n : Nat} (hn : 1 ≤ n) :
    ((singleOfNat n).toModel.unpack = .infinity .positive ∧ 2 ^ 127 ≤ n) ∨
      ∃ q e, ∃ hq : 0 < q, (singleOfNat n).toModel.unpack = .finite .positive q e hq ∧ -23 ≤ e ∧
        (q : ℚ) * 2 ^ e = roundAt n 1 (Format.single.quantum n 1) * 2 ^ Format.single.quantum n 1 := by
  obtain ⟨hg, hgn⟩ := single_quantum_natCast hn
  unfold singleOfNat
  rw [unpack_singleOfBits_eq]
  rcases roundRatio_single_cases false (by omega : 0 < n) one_pos with
    ⟨hinf, h104⟩ | ⟨q, e, hu, hf, hval⟩
  · refine Or.inl ⟨by rw [hinf]; rfl, ?_⟩
    have : (2 : ℚ) ^ (127 : Int) ≤ n :=
      (zpow_le_zpow_right₀ (by norm_num) (by omega)).trans hgn
    exact_mod_cast this
  · -- the rounded value has 24 bits at a quantum of at least `-23`, so it is at least one
    have hr : 2 ^ 23 ≤ roundAt n 1 (Format.single.quantum n 1) := by
      refine two_pow_le_roundAt one_pos 23 ?_
      rw [Nat.cast_one, div_one]
      exact_mod_cast hgn
    have hone : (1 : ℚ) ≤ q * 2 ^ e := by
      rw [hval]
      calc (1 : ℚ) = 2 ^ 23 * 2 ^ (-23 : Int) := by norm_num
        _ ≤ _ := by
          gcongr
          · exact_mod_cast hr
          · norm_num
    have hq : 0 < q := by
      rcases Nat.eq_zero_or_pos q with rfl | hq
      · norm_num at hone
      · exact hq
    have he : -23 ≤ e := by
      have hq' : (q : ℚ) < 2 ^ 24 := by exact_mod_cast hf.significand_lt
      have : (2 : ℚ) ^ (0 : Int) < 2 ^ (e + 24) :=
        calc (2 : ℚ) ^ (0 : Int) ≤ q * 2 ^ e := by simpa using hone
          _ < 2 ^ 24 * 2 ^ e := by gcongr
          _ = 2 ^ (e + 24) := by rw [zpow_add₀ two_ne_zero, mul_comm]; norm_num
      have := (zpow_lt_zpow_iff_right₀ (by norm_num : (1 : ℚ) < 2)).1 this
      omega
    exact Or.inr ⟨q, e, hq, by rw [hu, Unpacked.toModel_finite e hq]; rfl, he, hval⟩

/-! ## Converting a double -/

/-- A ratio at most one is rounded to a zero or to a positive single at most one: its quantum is
negative, and one is a whole number of steps of it. -/
theorem roundRatio_le_one {num den : Nat} (hnum : 0 < num) (hden : 0 < den)
    (hratio : (num : ℚ) / den ≤ 1) :
    (∃ s, (Format.single.unpack (Format.single.roundRatio false num den)).toModel = .zero s) ∨
      ∃ m e, ∃ hm : 0 < m,
        (Format.single.unpack (Format.single.roundRatio false num den)).toModel =
          .finite .positive m e hm ∧ SingleFields m e ∧ (m : ℚ) * 2 ^ e ≤ 1 := by
  obtain ⟨-, hlo⟩ := Format.single.quantum_bounds hnum hden
  rw [Format.single_fractionBits, Format.single_minQuantum] at hlo
  have hg : Format.single.quantum num den ≤ 0 := by
    rcases hlo with h | h
    · omega
    · have : (2 : ℚ) ^ (Format.single.quantum num den + ((23 : Nat) : Int)) ≤ 2 ^ (0 : Int) :=
        by simpa using h.trans hratio
      have := (zpow_le_zpow_iff_right₀ (by norm_num : (1 : ℚ) < 2)).1 this
      omega
  rcases roundRatio_single_cases false hnum hden with ⟨-, h104⟩ | ⟨m, e, hu, hf, hval⟩
  · omega
  · have hunit : (((2 ^ (-Format.single.quantum num den).toNat : Nat)) : ℚ) *
        2 ^ Format.single.quantum num den = 1 := by
      rw [Nat.cast_pow, Nat.cast_ofNat, ← zpow_natCast, ← zpow_add₀ two_ne_zero,
        show ((-Format.single.quantum num den).toNat : Int) + Format.single.quantum num den = 0
          by omega, zpow_zero]
    have hr := roundAt_le_of_le hden (hratio.trans_eq hunit.symm)
    have hle1 : (m : ℚ) * 2 ^ e ≤ 1 := by
      rw [hval, ← hunit]
      exact mul_le_mul_of_nonneg_right (by exact_mod_cast hr) (by positivity)
    rw [hu]
    rcases Nat.eq_zero_or_pos m with rfl | hm
    · exact Or.inl ⟨.positive, rfl⟩
    · exact Or.inr ⟨m, e, hm, by rw [Unpacked.toModel_finite e hm]; rfl, hf, hle1⟩

/-- A double at most one: below the exponent of one, or at it with a significand at most its
significand. -/
theorem double_value_le_one {m : Nat} {e : Int} (hm : m < 2 ^ 53)
    (hle : e < -52 ∨ e = -52 ∧ m ≤ 2 ^ 52) : (m : ℚ) * 2 ^ e ≤ 1 := by
  rcases hle with he | ⟨rfl, hm52⟩
  · calc (m : ℚ) * 2 ^ e ≤ 2 ^ 53 * 2 ^ (-53 : Int) := by
          gcongr
          · exact_mod_cast hm.le
          · norm_num
          · omega
      _ = 1 := by norm_num
  · calc (m : ℚ) * 2 ^ (-52 : Int) ≤ 2 ^ 52 * 2 ^ (-52 : Int) := by
          gcongr
          exact_mod_cast hm52
      _ = 1 := by norm_num

theorem UnpackedFloat.notANumber_le (a : UnpackedFloat) : UnpackedFloat.notANumber.le a = false := by
  cases a <;> rfl

/-- A value below another is at most it. -/
theorem UnpackedFloat.le_of_lt {a b : UnpackedFloat} (h : a.lt b = true) : a.le b = true := by
  simp only [UnpackedFloat.lt, beq_iff_eq] at h
  simp only [UnpackedFloat.le, h]
  rfl

namespace Float

/-- A double below another is at most it. -/
theorem le_of_lt {x y : Float} (h : x < y) : x ≤ y :=
  decide_eq_true (UnpackedFloat.le_of_lt (of_decide_eq_true h))

/-- A double above zero is a positive value. -/
theorem isPositive_of_pos {x : Float} (h : 0 < x) : IsPositive x.toModel.unpack := by
  have h' : (UnpackedFloat.zero .positive).lt x.toModel.unpack = true := of_decide_eq_true h
  cases hu : x.toModel.unpack with
  | notANumber =>
    rw [hu, UnpackedFloat.lt_notANumber] at h'
    cases h'
  | infinity s =>
    rw [hu] at h'
    cases s
    · cases h'
    · trivial
  | zero s =>
    rw [hu] at h'
    cases s <;> cases h'
  | finite s m e hm =>
    rw [hu] at h'
    cases s
    · cases h'
    · trivial

/-- A sum of two squares of doubles is never below zero. -/
theorem notBelowZero_sumSquares (a b : Float) : NotBelowZero (a * a + b * b).toModel.unpack :=
  notBelowZero_unpack_pack _ (notBelowZero_add _
    (notBelowZero_unpack_pack _ (notBelowZero_mul_self _ _))
    (notBelowZero_unpack_pack _ (notBelowZero_mul_self _ _)))

/-- A double that is not below zero divided by one above zero is not below zero. -/
theorem notBelowZero_div {x y : Float} (hx : NotBelowZero x.toModel.unpack) (hy : 0 < y) :
    NotBelowZero (x / y).toModel.unpack :=
  notBelowZero_unpack_pack _ (Binary.notBelowZero_div _ hx (isPositive_of_pos hy))

end Float

/-- A double in `[0, 1]`, not below zero and at most one, converts to a single in `[0, 1]`. -/
theorem singleOfDouble_mem_Icc {d : Float} (hd : NotBelowZero d.toModel.unpack) (h1 : d ≤ 1) :
    0 ≤ singleOfDouble d ∧ singleOfDouble d ≤ 1 := by
  have h1' : d.toModel.unpack.le (.finite .positive (2 ^ 52) (-52) (by decide)) = true :=
    of_decide_eq_true h1
  rw [Float.unpack_toModel] at hd h1'
  refine Float32.mem_Icc_of_unpack ?_
  unfold singleOfDouble Format.convert
  rw [unpack_singleOfBits_eq]
  generalize hu : Format.double.unpack d.toBits.toNat = u at hd h1' ⊢
  rcases u with _ | neg | ⟨neg, m, e⟩
  · exact absurd h1' (by simp [Unpacked.toModel, UnpackedFloat.notANumber_le])
  · cases neg
    · cases h1'
    · cases hd
  · have hs := scaleByTwo_spec m e
    have hz := scaleByTwo_fst_eq_zero_iff m e
    dsimp only
    generalize scaleByTwo m e = p at hs hz
    obtain ⟨num, den⟩ := p
    dsimp only at hs hz ⊢
    rcases Nat.eq_zero_or_pos m with rfl | hm
    · -- a zero converts to a zero of its sign
      have hzero : Format.single.roundRatio neg num den = Format.single.signPart neg := by
        unfold Format.roundRatio
        rw [if_pos (Or.inl (hz.2 rfl))]
      refine Or.inl ⟨signOf neg, ?_⟩
      rw [hzero]
      cases neg <;> rfl
    · -- not below zero, the double is positive, and at most one in the order of keys
      cases neg
      swap
      · rw [Unpacked.toModel_finite e hm] at hd
        cases hd
      rw [Unpacked.toModel_finite e hm, le_iff_orderKey_le rfl rfl] at h1'
      simp only [signOf, Bool.false_eq_true, if_false, orderKey, Prod.Lex.toLex_le_toLex,
        lt_self_iff_false, true_and, false_or] at h1'
      have hv := double_value_le_one (significand_lt_of_unpack_double hu)
        (h1'.imp_right fun h => ⟨h.1, by exact_mod_cast h.2⟩)
      exact roundRatio_le_one (Nat.pos_of_ne_zero fun h => hm.ne' (hz.1 h)) hs.1 (hs.2 ▸ hv)

end VoiceBench.Binary
