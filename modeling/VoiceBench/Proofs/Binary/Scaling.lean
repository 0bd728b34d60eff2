import Mathlib
import VoiceBench.Proofs.Binary.Share

/-!
# Scaling singles by powers of two

A power of two `2 ^ k` of at most 24 bits is a single exactly, with the significand of one
(`unpack_singleOfNat_two_pow`), and so is `2 ^ k - 1` (`unpack_singleOfNat_two_pow_sub_one`).
Multiplying a single by `2 ^ k` is exact unless the product passes the largest exponent, where
it becomes an infinity of the single's sign (`mul_pow_two_exact`); dividing a normal single by
`2 ^ k` is exact while the quotient stays normal (`div_pow_two_exact`). An integer of at most 24
bits converts to a single exactly (`hasValue_singleOfInt`).

The value of a zero or a finite single is a rational (`valueOf?`); `HasValue x a` says that `x`
is a zero or a single in the canonical form of the encoding, of value `a`. Such singles compare
as their values do (`HasValue.lt_iff`), and converting one to an integer range truncates its value
toward zero and clamps it (`castSingle_of_hasValue`).
-/

namespace VoiceBench.Binary

open Float.Model UnpackedFloat

/-! ## Values -/

/-- A magnitude with a sign. -/
def withSign : Sign → ℚ → ℚ
  | .positive, r => r
  | .negative, r => -r

/-- The value of a zero or of a finite unpacked float; infinities and NaN have none. -/
def valueOf? : UnpackedFloat → Option ℚ
  | .zero _ => some 0
  | .finite s m e _ => some (withSign s (m * 2 ^ e))
  | _ => none

theorem withSign_neg (s : Sign) (r : ℚ) : withSign (-s) r = -withSign s r := by
  cases s
  · exact (neg_neg r).symm
  · rfl

theorem withSign_mul (s : Sign) (r c : ℚ) : withSign s r * c = withSign s (r * c) := by
  cases s
  · exact neg_mul r c
  · rfl

/-- A zero, or a finite value whose fields are those of a single. -/
def IsSingle : UnpackedFloat → Prop
  | .zero _ => True
  | .finite _ m e _ => SingleFields m e
  | _ => False

/-- A single that is a zero or a finite single of value `a`. -/
@[mk_iff]
structure HasValue (x : Float32) (a : ℚ) : Prop where
  isSingle : IsSingle x.toModel.unpack
  valueOf_eq : valueOf? x.toModel.unpack = some a

theorem IsSingle.isNaN_eq_false {u : UnpackedFloat} (hu : IsSingle u) : u.isNaN = false := by
  cases u with
  | notANumber => exact hu.elim
  | infinity s => exact hu.elim
  | zero s => rfl
  | finite s m e hm => rfl

/-- Positive singles are ordered by exponent, then significand, as their values are. -/
theorem value_lt_iff_lex {m m' : Nat} {e e' : Int} (hf : SingleFields m e)
    (hf' : SingleFields m' e') :
    (m : ℚ) * 2 ^ e < m' * 2 ^ e' ↔ e < e' ∨ e = e' ∧ m < m' := by
  have below : ∀ {a b : Nat} {x y : Int}, SingleFields a x → SingleFields b y → x < y →
      (a : ℚ) * 2 ^ x < b * 2 ^ y := by
    intro a b x y ha hb hlt
    have hb23 : (2 : ℚ) ^ 23 ≤ b := by
      exact_mod_cast hb.normal.resolve_right (by linarith [ha.exponent_ge])
    have ha24 : (a : ℚ) < 2 ^ 24 := by exact_mod_cast ha.significand_lt
    calc (a : ℚ) * 2 ^ x < 2 ^ 24 * 2 ^ x := by gcongr
      _ = 2 ^ 23 * 2 ^ (x + 1) := by rw [zpow_add_one₀ two_ne_zero]; ring
      _ ≤ b * 2 ^ y := by
        gcongr
        · norm_num
        · omega
  constructor
  · intro h
    rcases lt_trichotomy e e' with hlt | rfl | hgt
    · exact Or.inl hlt
    · exact Or.inr ⟨rfl, by exact_mod_cast lt_of_mul_lt_mul_right h (by positivity)⟩
    · exact absurd h (not_lt.2 (below hf' hf hgt).le)
  · rintro (hlt | ⟨rfl, hlt⟩)
    · exact below hf hf' hlt
    · gcongr

/-- Two singles of the same value have the same fields. -/
theorem SingleFields.eq_of_value_eq {m m' : Nat} {e e' : Int} (hf : SingleFields m e)
    (hf' : SingleFields m' e') (h : (m : ℚ) * 2 ^ e = m' * 2 ^ e') : m = m' ∧ e = e' := by
  have h1 : ¬(e < e' ∨ e = e' ∧ m < m') := by
    rw [← value_lt_iff_lex hf hf', h]
    exact lt_irrefl _
  have h2 : ¬(e' < e ∨ e' = e ∧ m' < m) := by
    rw [← value_lt_iff_lex hf' hf, h]
    exact lt_irrefl _
  omega

/-- Zeros and singles compare as their values do. -/
theorem lt_iff_value_lt {u v : UnpackedFloat} (hu : IsSingle u) (hv : IsSingle v) {a b : ℚ}
    (ha : valueOf? u = some a) (hb : valueOf? v = some b) : u.lt v = true ↔ a < b := by
  rw [lt_iff_orderKey_lt hu.isNaN_eq_false hv.isNaN_eq_false]
  cases u with
  | notANumber => exact hu.elim
  | infinity s => exact hu.elim
  | zero s =>
    cases v with
    | notANumber => exact hv.elim
    | infinity t => exact hv.elim
    | zero t =>
      simp only [valueOf?, Option.some.injEq] at ha hb
      subst ha hb
      simp [orderKey]
    | finite t m' e' hm' =>
      simp only [valueOf?, Option.some.injEq] at ha
      subst ha
      cases t <;> simp only [valueOf?, withSign, Option.some.injEq] at hb <;> subst hb <;>
        simp [orderKey, Prod.Lex.toLex_lt_toLex] <;> positivity
  | finite s m e hm =>
    cases v with
    | notANumber => exact hv.elim
    | infinity t => exact hv.elim
    | zero t =>
      simp only [valueOf?, Option.some.injEq] at hb
      subst hb
      cases s <;> simp only [valueOf?, withSign, Option.some.injEq] at ha <;> subst ha <;>
        simp [orderKey, Prod.Lex.toLex_lt_toLex] <;> positivity
    | finite t m' e' hm' =>
      have hpos : (0 : ℚ) < m * 2 ^ e ∧ (0 : ℚ) < m' * 2 ^ e' := ⟨by positivity, by positivity⟩
      cases s <;> cases t <;> simp only [valueOf?, withSign, Option.some.injEq] at ha hb <;>
        subst ha hb
      · simp only [orderKey, Prod.Lex.toLex_lt_toLex, lt_self_iff_false, true_and, false_or,
          neg_inj, Nat.cast_lt, neg_lt_neg_iff]
        rw [value_lt_iff_lex hv hu]
        omega
      · simp only [orderKey, Prod.Lex.toLex_lt_toLex]
        constructor
        · intro
          linarith
        · intro
          omega
      · simp only [orderKey, Prod.Lex.toLex_lt_toLex]
        constructor
        · intro h
          omega
        · intro h
          linarith
      · simp only [orderKey, Prod.Lex.toLex_lt_toLex, lt_self_iff_false, true_and, false_or,
          Nat.cast_lt]
        rw [value_lt_iff_lex hu hv]

/-- Singles compare as the float arithmetic compares their unpacked forms. -/
theorem single_lt_iff {x y : Float32} : x < y ↔ x.toModel.unpack.lt y.toModel.unpack = true :=
  ⟨of_decide_eq_true, decide_eq_true⟩

/-- Singles with values compare as their values do. -/
theorem HasValue.lt_iff {x y : Float32} {a b : ℚ} (hx : HasValue x a) (hy : HasValue y b) :
    x < y ↔ a < b := by
  rw [single_lt_iff]
  exact lt_iff_value_lt hx.isSingle hy.isSingle hx.valueOf_eq hy.valueOf_eq

/-- A negative infinity is below every single, and a positive one above. -/
theorem infinity_lt_iff {u : UnpackedFloat} (hu : IsSingle u) (s : Sign) :
    (UnpackedFloat.infinity s).lt u = true ↔ s = .negative := by
  rw [lt_iff_orderKey_lt rfl hu.isNaN_eq_false]
  cases u with
  | notANumber => exact hu.elim
  | infinity t => exact hu.elim
  | zero t => cases s <;> simp [orderKey, Prod.Lex.toLex_lt_toLex]
  | finite t m e hm => cases s <;> cases t <;> simp [orderKey, Prod.Lex.toLex_lt_toLex]

theorem lt_infinity_iff {u : UnpackedFloat} (hu : IsSingle u) (s : Sign) :
    u.lt (UnpackedFloat.infinity s) = true ↔ s = .positive := by
  rw [lt_iff_orderKey_lt hu.isNaN_eq_false rfl]
  cases u with
  | notANumber => exact hu.elim
  | infinity t => exact hu.elim
  | zero t => cases s <;> simp [orderKey, Prod.Lex.toLex_lt_toLex]
  | finite t m e hm => cases s <;> cases t <;> simp [orderKey, Prod.Lex.toLex_lt_toLex]

theorem unpack_pack_zero (s : Sign) :
    UnpackedFloat.unpack .binary32 (UnpackedFloat.pack .binary32 (.zero s)) = .zero s := by
  cases s <;> rfl

/-- Negation keeps a single and negates its value. -/
theorem HasValue.neg {x : Float32} {a : ℚ} (hx : HasValue x a) : HasValue (-x) (-a) := by
  have hneg : (-x).toModel.unpack =
      UnpackedFloat.unpack .binary32 (UnpackedFloat.pack .binary32 x.toModel.unpack.neg) := rfl
  obtain ⟨hs, hv⟩ := hx
  rw [hasValue_iff, hneg]
  generalize x.toModel.unpack = u at hs hv
  cases u with
  | zero s =>
    cases hv
    rw [UnpackedFloat.neg, unpack_pack_zero]
    exact ⟨trivial, by simp [valueOf?]⟩
  | finite s m e hm =>
    cases hv
    rw [UnpackedFloat.neg, unpack_pack_binary32 _ hm hs]
    exact ⟨hs, by simp only [valueOf?, withSign_neg]⟩
  | notANumber => exact hs.elim
  | infinity s => exact hs.elim

/-! ## Powers of two -/

/-- A single's significand shifted up by `j` bits at an exponent `j` lower keeps its target
exponent: the single's own. -/
theorem targetExponent_shifted {m : Nat} (hm : 0 < m) {e : Int} (hf : SingleFields m e)
    (j : Nat) : Format.binary32.targetExponent (totalExponent (m * 2 ^ j) (e - j)) = e := by
  rw [targetExponent_binary32, totalExponent, log2_mul_two_pow hm j]
  have hlog24 : m.log2 < 24 := (Nat.log2_lt hm.ne').2 hf.significand_lt
  have hge := hf.exponent_ge
  rcases hf.normal with h23 | he
  · have : 23 ≤ m.log2 := (Nat.le_log2 hm.ne').2 h23
    omega
  · omega

/-- A single's value written with a significand `j` bits longer is rounded back to the single. -/
theorem roundWithAccuracy_shifted (s : Sign) {m : Nat} (hm : 0 < m) {e : Int}
    (hf : SingleFields m e) (j : Nat) :
    roundWithAccuracy .binary32 s (m * 2 ^ j) (e - j) .exact = .finite s m e hm := by
  have hM : 0 < m * 2 ^ j := Nat.mul_pos hm (by positivity)
  have ht := targetExponent_shifted hm hf j
  have hround : roundAt (m * 2 ^ j) 1 (e - (e - j)) = m := by
    refine roundAt_of_eq one_pos ?_
    rw [show e - (e - j) = ((j : Nat) : Int) by ring, zpow_natCast]
    push_cast
    ring
  have hE : e - j ≤ Format.binary32.targetExponent (totalExponent (m * 2 ^ j) (e - j)) := by
    rw [ht]
    omega
  rcases roundWithAccuracy_binary32 s hM hE with
    ⟨hz, -⟩ | ⟨m', e', hm', hfin, hm24, he', hnorm, hval⟩
  · rw [ht, hround] at hz
    exact absurd hz hm.ne'
  · rw [ht, hround] at hval
    have hle : e' ≤ 104 := exponent_le_of_le_single hnorm hf hval.le
    obtain ⟨rfl, rfl⟩ := SingleFields.eq_of_value_eq hf ⟨hm24, he', hle, hnorm⟩ hval.symm
    exact hfin

/-- Rounding a single's value written with a longer significand gives the single back. -/
theorem round_shifted (s : Sign) {m : Nat} (hm : 0 < m) {e : Int} (hf : SingleFields m e)
    (j : Nat) : UnpackedFloat.round .binary32 s (m * 2 ^ j) (e - j) = .finite s m e hm := by
  have hround : UnpackedFloat.round .binary32 s (m * 2 ^ j) (e - j) =
      roundWithAccuracy .binary32 s (decreaseExponent (m * 2 ^ j) (e - j)
        (Format.binary32.targetExponent (totalExponent (m * 2 ^ j) (e - j)))).1
        (decreaseExponent (m * 2 ^ j) (e - j)
          (Format.binary32.targetExponent (totalExponent (m * 2 ^ j) (e - j)))).2 .exact :=
    rfl
  rw [hround, targetExponent_shifted hm hf j]
  simp only [decreaseExponent, show (e - j - e).toNat = 0 by omega, Nat.shiftLeft_zero,
    Nat.cast_zero, sub_zero]
  exact roundWithAccuracy_shifted s hm hf j

/-- `2 ^ k` is a single with the significand of one. -/
theorem unpack_singleOfNat_two_pow {k : Nat} (hk : k ≤ 24) :
    (singleOfNat (2 ^ k)).toModel.unpack = .finite .positive (2 ^ 23) ((k : Int) - 23)
      (by positivity) := by
  obtain ⟨q, e, hq, hx, hf, -, hval⟩ :=
    singleOfNat_exact (Nat.one_le_two_pow) (Nat.pow_le_pow_right (by norm_num) hk)
  have hf' : SingleFields (2 ^ 23) ((k : Int) - 23) :=
    ⟨by norm_num, by omega, by omega, Or.inl le_rfl⟩
  have hval' : (q : ℚ) * 2 ^ e = (2 ^ 23 : Nat) * 2 ^ ((k : Int) - 23) := by
    rw [hval, zpow_sub₀ two_ne_zero]
    push_cast
    rw [zpow_natCast]
    ring
  obtain ⟨rfl, rfl⟩ := SingleFields.eq_of_value_eq hf hf' hval'
  exact hx

/-- `2 ^ k - 1` is a single: its significand is `2 ^ 24 - 2 ^ (24 - k)`. -/
theorem unpack_singleOfNat_two_pow_sub_one {k : Nat} (h1 : 1 ≤ k) (hk : k ≤ 24) :
    (singleOfNat (2 ^ k) - 1).toModel.unpack =
      .finite .positive (2 ^ 24 - 2 ^ (24 - k)) ((k : Int) - 24)
        (Nat.sub_pos_of_lt (Nat.pow_lt_pow_right (by norm_num) (by omega))) := by
  have hsub : (singleOfNat (2 ^ k) - 1).toModel.unpack = UnpackedFloat.unpack .binary32
      (UnpackedFloat.pack .binary32 (UnpackedFloat.sub .binary32
        (singleOfNat (2 ^ k)).toModel.unpack (1 : Float32).toModel.unpack)) := rfl
  have hlow : 2 ^ (24 - k) ≤ 2 ^ 23 := Nat.pow_le_pow_right (by norm_num) (by omega)
  have htop : 2 ^ k * 2 ^ (24 - k) = 2 ^ 24 := by rw [← Nat.pow_add]; congr 1; omega
  have hm : 0 < 2 ^ 24 - 2 ^ (24 - k) := by omega
  have hpow : 0 < 2 ^ (24 - k) := by positivity
  have hf : SingleFields (2 ^ 24 - 2 ^ (24 - k)) ((k : Int) - 24) :=
    ⟨by omega, by omega, by omega, Or.inl (by omega)⟩
  rw [hsub, unpack_singleOfNat_two_pow hk, unpack_one]
  simp only [UnpackedFloat.sub, decreaseExponent, Sign.apply, Nat.shiftLeft_eq,
    min_eq_right (show (-23 : Int) ≤ k - 23 by omega)]
  have hdiff : ((2 ^ 23 * 2 ^ ((k : Int) - 23 - -23).toNat : Nat) : Int) -
      ((2 ^ 23 * 2 ^ (-23 - -23 : Int).toNat : Nat) : Int) =
      (((2 ^ 24 - 2 ^ (24 - k)) * 2 ^ (k - 1) : Nat) : Int) := by
    have hk' : ((k : Int) - 23 - -23).toNat = k := by omega
    have hsplit : 2 ^ k = 2 * 2 ^ (k - 1) := by rw [← Nat.pow_succ']; congr 1; omega
    rw [hk', show (-23 - -23 : Int).toNat = 0 by rfl, Nat.pow_zero, Nat.mul_one, Nat.sub_mul,
      show 2 ^ 24 * 2 ^ (k - 1) = 2 ^ 23 * 2 ^ k by rw [hsplit]; ring,
      show 2 ^ (24 - k) * 2 ^ (k - 1) = 2 ^ 23 by rw [← Nat.pow_add]; congr 1; omega]
    have : 2 ^ 23 ≤ 2 ^ 23 * 2 ^ k := Nat.le_mul_of_pos_right _ (by positivity)
    omega
  rw [hdiff, normalize_of_pos (by positivity), Int.toNat_natCast,
    show (-23 : Int) = (k : Int) - 24 - ((k - 1 : Nat) : Int) by omega, round_shifted .positive hm hf]
  exact unpack_pack_binary32 .positive hm hf

theorem sign_div_positive (s : Sign) : s / .positive = s := by
  cases s <;> rfl

theorem sign_mul_positive (s : Sign) : s * .positive = s := by
  cases s <;> rfl

theorem exists_signOf (s : Sign) : ∃ neg, s = signOf neg := by
  cases s
  · exact ⟨true, rfl⟩
  · exact ⟨false, rfl⟩

/-- A NaN times anything is a NaN. -/
theorem unpack_pack_mul_notANumber (v : UnpackedFloat) :
    UnpackedFloat.unpack .binary32 (UnpackedFloat.pack .binary32
      (UnpackedFloat.mul .binary32 .notANumber v)) = .notANumber := by
  rw [UnpackedFloat.mul]
  rfl

/-- An infinity times a positive single is the same infinity. -/
theorem unpack_pack_mul_infinity (s : Sign) {m : Nat} {e : Int} (hm : 0 < m) :
    UnpackedFloat.unpack .binary32 (UnpackedFloat.pack .binary32
      (UnpackedFloat.mul .binary32 (.infinity s) (.finite .positive m e hm))) = .infinity s := by
  rw [UnpackedFloat.mul, sign_mul_positive]
  cases s <;> rfl

/-- A zero times a positive single is the same zero. -/
theorem unpack_pack_mul_zero (s : Sign) {m : Nat} {e : Int} (hm : 0 < m) :
    UnpackedFloat.unpack .binary32 (UnpackedFloat.pack .binary32
      (UnpackedFloat.mul .binary32 (.zero s) (.finite .positive m e hm))) = .zero s := by
  rw [UnpackedFloat.mul, sign_mul_positive, unpack_pack_zero]

/-- An exponent past the largest one packs to an infinity of the same sign. -/
theorem unpack_pack_of_exponent_gt (s : Sign) {m : Nat} {e : Int} (hm : 0 < m) (he : 104 < e) :
    UnpackedFloat.unpack .binary32 (UnpackedFloat.pack .binary32 (.finite s m e hm)) =
      .infinity s := by
  unfold UnpackedFloat.pack
  have hbias : (Format.binary32.exponentBias : Int) = 127 := rfl
  have hfrac : (Format.binary32.mantissaBitsWithoutImplicit : Int) = 23 := rfl
  simp only [hbias, hfrac]
  rw [if_pos (show 2 ^ Format.binary32.exponentBits ≤ (e + 127 + 23).toNat + 1 by
    show 2 ^ 8 ≤ _; omega)]
  cases s <;> rfl

/-- A significand of at most 24 bits moved up by 23 bits, at an exponent of at least `-172`, is
rounded exactly: its target exponent lies at most 23 bits above its exponent. -/
theorem roundAt_shifted_exact {m : Nat} (hm : 0 < m) (hm24 : m < 2 ^ 24) {E : Int}
    (hE : -172 ≤ E) :
    (roundAt (m * 2 ^ 23) 1 (Format.binary32.targetExponent (totalExponent (m * 2 ^ 23) E) - E) :
        ℚ) * 2 ^ Format.binary32.targetExponent (totalExponent (m * 2 ^ 23) E) =
      m * 2 ^ (E + 23) := by
  have hlog24 : m.log2 < 24 := (Nat.log2_lt hm.ne').2 hm24
  generalize ht : Format.binary32.targetExponent (totalExponent (m * 2 ^ 23) E) = t
  rw [targetExponent_binary32, totalExponent, log2_mul_two_pow hm 23] at ht
  have hle : t ≤ E + 23 := by omega
  have hround : roundAt (m * 2 ^ 23) 1 (t - E) = m * 2 ^ (E + 23 - t).toNat := by
    refine roundAt_of_eq one_pos ?_
    have hd : (((E + 23 - t).toNat : Nat) : Int) + (t - E) = ((23 : Nat) : Int) := by omega
    simp only [Nat.cast_one, div_one, Nat.cast_mul, Nat.cast_pow, Nat.cast_ofNat]
    rw [mul_assoc, ← zpow_natCast, ← zpow_natCast, ← zpow_add₀ two_ne_zero, hd]
  rw [hround]
  exact shifted_value m hle

/-- A single times `2 ^ k`, for `k ≥ 0`: exact, or past the largest single an infinity of the
single's sign. -/
theorem mul_pow_two_exact {s : Sign} {m : Nat} {e : Int} (hm : 0 < m) (hf : SingleFields m e)
    {k : Int} (hk : 0 ≤ k) :
    (UnpackedFloat.unpack .binary32 (UnpackedFloat.pack .binary32 (UnpackedFloat.mul .binary32
        (.finite s m e hm) (.finite .positive (2 ^ 23) (k - 23) (by positivity)))) = .infinity s ∧
        (2 : ℚ) ^ (128 : Int) ≤ m * 2 ^ (e + k)) ∨
      ∃ m' e', ∃ hm' : 0 < m', UnpackedFloat.unpack .binary32 (UnpackedFloat.pack .binary32
        (UnpackedFloat.mul .binary32 (.finite s m e hm) (.finite .positive (2 ^ 23) (k - 23)
          (by positivity)))) = .finite s m' e' hm' ∧ SingleFields m' e' ∧
        (m' : ℚ) * 2 ^ e' = m * 2 ^ (e + k) := by
  have hmul : UnpackedFloat.mul .binary32 (.finite s m e hm)
      (.finite .positive (2 ^ 23) (k - 23) (by positivity)) =
      roundWithAccuracy .binary32 s (m * 2 ^ 23) (e + (k - 23)) .exact := by
    simp only [UnpackedFloat.mul, sign_mul_positive]
  rw [hmul]
  have hM : 0 < m * 2 ^ 23 := Nat.mul_pos hm (by positivity)
  have hE : e + (k - 23) ≤
      Format.binary32.targetExponent (totalExponent (m * 2 ^ 23) (e + (k - 23))) := by
    rw [targetExponent_binary32, totalExponent, log2_mul_two_pow hm 23]
    omega
  have hexact := roundAt_shifted_exact hm hf.significand_lt (E := e + (k - 23))
    (by linarith [hf.exponent_ge])
  rw [show e + (k - 23) + 23 = e + k by ring] at hexact
  rcases roundWithAccuracy_binary32 s hM hE with
    ⟨hz, -⟩ | ⟨m', e', hm', hfin, hm24, he', hnorm, hval⟩
  · rw [hz, Nat.cast_zero, zero_mul] at hexact
    exact absurd hexact.symm (by positivity)
  · rw [hexact] at hval
    rw [hfin]
    by_cases he104 : e' ≤ 104
    · have hfields : SingleFields m' e' := ⟨hm24, he', he104, hnorm⟩
      exact Or.inr ⟨m', e', hm', unpack_pack_binary32 s hm' hfields, hfields, hval⟩
    · -- past the largest exponent the product is at least `2 ^ 128`
      refine Or.inl ⟨unpack_pack_of_exponent_gt s hm' (by omega), ?_⟩
      have h23 : (2 : ℚ) ^ 23 ≤ m' := by exact_mod_cast hnorm.resolve_right (by omega)
      rw [← hval]
      calc (2 : ℚ) ^ (128 : Int) = 2 ^ 23 * 2 ^ (105 : Int) := by norm_num
        _ ≤ m' * 2 ^ e' := by
          gcongr
          · norm_num
          · omega

/-- A normal single divided by `2 ^ k` is exact while the quotient stays normal. -/
theorem div_pow_two_exact {s : Sign} {m : Nat} {e : Int} (hm : 0 < m) (hf : SingleFields m e)
    (h23 : 2 ^ 23 ≤ m) {k : Nat} (hk : -149 ≤ e - k) :
    UnpackedFloat.div .binary32 (.finite s m e hm) (.finite .positive (2 ^ 23) ((k : Int) - 23)
      (by positivity)) = .finite s m (e - k) hm := by
  have hlog : m.log2 = 23 :=
    le_antisymm (Nat.lt_succ_iff.1 ((Nat.log2_lt hm.ne').2 hf.significand_lt))
      ((Nat.le_log2 hm.ne').2 h23)
  have hfk : SingleFields m (e - k) :=
    ⟨hf.significand_lt, hk, by linarith [hf.exponent_le], Or.inl h23⟩
  obtain ⟨j, hj, htarget⟩ : ∃ j : Nat, j ≤ 1 ∧
      min (e - ((k : Int) - 23)) (Format.binary32.targetExponent
        (totalExponent m e - totalExponent (2 ^ 23) ((k : Int) - 23))) = e - k - j := by
    rw [targetExponent_binary32, totalExponent, totalExponent, hlog,
      show (2 ^ 23 : Nat).log2 = 23 from rfl]
    refine ⟨if e - k = -149 then 0 else 1, by split_ifs <;> omega, ?_⟩
    split_ifs <;> omega
  unfold UnpackedFloat.div UnpackedFloat.divCore
  simp only [htarget, sign_div_positive]
  have hshift : (e - ((k : Int) - 23) - (e - k - j)).toNat = 23 + j := by omega
  have hdiv : m <<< (23 + j) / 2 ^ 23 = m * 2 ^ j := by
    rw [Nat.shiftLeft_eq, Nat.pow_add, ← Nat.mul_assoc, Nat.mul_comm m, Nat.mul_assoc,
      Nat.mul_div_cancel_left _ (by positivity)]
  have hmod : m <<< (23 + j) % 2 ^ 23 = 0 := by
    rw [Nat.shiftLeft_eq, Nat.pow_add]
    exact Nat.mod_eq_zero_of_dvd (Dvd.dvd.mul_left (Dvd.intro _ rfl) m)
  rw [hshift, hdiv, hmod]
  exact roundWithAccuracy_shifted s hm hfk j

/-! ## Integers -/

/-- A non-zero integer of at most 24 bits is a normal single of its magnitude. -/
theorem singleOfInt_exact {v : Int} (h0 : v ≠ 0) (h24 : v.natAbs ≤ 2 ^ 24) :
    ∃ q e, ∃ hq : 0 < q,
      (singleOfInt v).toModel.unpack = .finite (signOf (decide (v < 0))) q e hq ∧
      SingleFields q e ∧ 2 ^ 23 ≤ q ∧ (q : ℚ) * 2 ^ e = v.natAbs := by
  obtain ⟨q, e, hu, hf, hq23, hval⟩ :=
    roundRatio_natCast_exact (decide (v < 0)) (Int.natAbs_pos.2 h0) h24
  have hq : 0 < q := by omega
  refine ⟨q, e, hq, ?_, hf, hq23, hval⟩
  rw [singleOfInt, unpack_singleOfBits_eq, hu, Unpacked.toModel_finite e hq]

/-- An integer of at most 24 bits is a single of its value. -/
theorem hasValue_singleOfInt {v : Int} (h24 : v.natAbs ≤ 2 ^ 24) :
    HasValue (singleOfInt v) v := by
  rcases eq_or_ne v 0 with rfl | h0
  · exact ⟨trivial, rfl⟩
  obtain ⟨q, e, hq, hu, hf, -, hval⟩ := singleOfInt_exact h0 h24
  refine ⟨hu ▸ hf, ?_⟩
  simp only [hu, valueOf?, hval]
  rcases lt_or_gt_of_ne h0 with hneg | hpos
  · simp [signOf, hneg, withSign, Nat.cast_natAbs, abs_of_neg hneg]
  · simp [signOf, not_lt.2 hpos.le, withSign, Nat.cast_natAbs, abs_of_pos hpos]

/-- An integer of at most 24 bits divided by `2 ^ k`, for `k ≤ 24`, is exact: the integer is a
normal single of exponent at least `-23`, and the quotient stays normal. -/
theorem hasValue_singleOfInt_div {q : Int} (hq : q.natAbs ≤ 2 ^ 24) {k : Nat} (hk : k ≤ 24) :
    HasValue (singleOfInt q / singleOfNat (2 ^ k)) (q / 2 ^ k) := by
  have hdiv : (singleOfInt q / singleOfNat (2 ^ k)).toModel.unpack =
      UnpackedFloat.unpack .binary32 (UnpackedFloat.pack .binary32 (UnpackedFloat.div .binary32
        (singleOfInt q).toModel.unpack (singleOfNat (2 ^ k)).toModel.unpack)) := rfl
  rw [unpack_singleOfNat_two_pow hk] at hdiv
  rcases eq_or_ne q 0 with rfl | h0
  · -- zero over a positive single is a zero
    have hz : (singleOfInt 0).toModel.unpack = .zero .positive := rfl
    rw [hz, UnpackedFloat.div, sign_div_positive, unpack_pack_zero] at hdiv
    exact ⟨by rw [hdiv]; trivial, by rw [hdiv]; simp [valueOf?]⟩
  obtain ⟨m, e, hm, hu, hf, h23, hval⟩ := singleOfInt_exact h0 hq
  have he : -23 ≤ e := by
    by_contra hlt
    have h1 : (1 : ℚ) ≤ m * 2 ^ e := by
      rw [hval]
      exact_mod_cast Int.natAbs_pos.2 h0
    have hm24 : (m : ℚ) < 2 ^ 24 := by exact_mod_cast hf.significand_lt
    have : (m : ℚ) * 2 ^ e < 1 :=
      calc (m : ℚ) * 2 ^ e ≤ m * 2 ^ (-24 : Int) := by
            gcongr
            · norm_num
            · omega
        _ < 2 ^ 24 * 2 ^ (-24 : Int) := by gcongr
        _ = 1 := by norm_num
    linarith
  have hfk : SingleFields m (e - k) :=
    ⟨hf.significand_lt, by omega, by linarith [hf.exponent_le], Or.inl h23⟩
  rw [hu, div_pow_two_exact hm hf h23 (by omega), unpack_pack_binary32 _ hm hfk] at hdiv
  refine ⟨by rw [hdiv]; exact hfk, ?_⟩
  rw [hdiv]
  have hquot : (m : ℚ) * 2 ^ (e - k) = q.natAbs / 2 ^ k := by
    rw [← hval, zpow_sub₀ two_ne_zero, zpow_natCast, mul_div_assoc]
  simp only [valueOf?, hquot, Option.some.injEq]
  rcases lt_or_gt_of_ne h0 with hneg | hpos
  · simp [signOf, hneg, withSign, Nat.cast_natAbs, abs_of_neg hneg, neg_div]
  · simp [signOf, not_lt.2 hpos.le, withSign, Nat.cast_natAbs, abs_of_pos hpos]

/-- Truncation of a rational toward zero. -/
def truncate (a : ℚ) : Int := if 0 ≤ a then ⌊a⌋ else ⌈a⌉

theorem truncate_intCast (n : Int) : truncate n = n := by
  unfold truncate
  split_ifs <;> simp

/-- Truncating a value between two integers stays between them. -/
theorem truncate_mem {a : ℚ} {lo hi : Int} (hlo : (lo : ℚ) ≤ a) (hhi : a ≤ hi) :
    lo ≤ truncate a ∧ truncate a ≤ hi := by
  unfold truncate
  split_ifs
  · exact ⟨Int.le_floor.2 hlo, Int.floor_le_iff.2 (by linarith)⟩
  · exact ⟨Int.le_ceil_iff.2 (by linarith), Int.ceil_le.2 hhi⟩

/-- The integer part of a single's magnitude, as `castSingle` shifts it out. -/
theorem floor_value (m : Nat) (e : Int) :
    ⌊(m : ℚ) * 2 ^ e⌋ = ((m * 2 ^ e.toNat / 2 ^ (-e).toNat : Nat) : Int) := by
  have hq : (m : ℚ) * 2 ^ e = ((m * 2 ^ e.toNat : Nat) : ℚ) / ((2 ^ (-e).toNat : Nat) : ℚ) := by
    push_cast
    rw [← zpow_natCast, ← zpow_natCast, mul_div_assoc, ← zpow_sub₀ two_ne_zero]
    congr 2
    omega
  rw [hq, Rat.floor_natCast_div_natCast, Int.natCast_div]

theorem truncate_withSign (s : Sign) {m : Nat} (hm : 0 < m) (e : Int) :
    truncate (withSign s (m * 2 ^ e)) = s.apply (m * 2 ^ e.toNat / 2 ^ (-e).toNat : Nat) := by
  have hpos : (0 : ℚ) < m * 2 ^ e := by positivity
  cases s with
  | positive => simp [truncate, withSign, hpos.le, floor_value, Sign.apply]
  | negative =>
    simp [truncate, withSign, not_le.2 (neg_neg_of_pos hpos), Int.ceil_neg, floor_value,
      Sign.apply]

/-- A single of value `a` converts to `a` truncated toward zero, clamped to the range. -/
theorem castSingle_of_hasValue {x : Float32} {a : ℚ} (hx : HasValue x a) (lo hi : Int) :
    castSingle lo hi x = max lo (min hi (truncate a)) := by
  have hv := hx.valueOf_eq
  generalize hu : x.toModel.unpack = u at hv
  cases u with
  | zero s =>
    cases hv
    rw [castSingle_of_unpack_zero hu, show truncate 0 = 0 by simp [truncate]]
  | finite s m e hm =>
    cases hv
    rw [castSingle_of_unpack_finite hu, truncate_withSign s hm e]
  | notANumber => cases hv
  | infinity s => cases hv

/-- A single whose value is an integer in the range converts to that integer. -/
theorem castSingle_of_hasValue_intCast {x : Float32} {n lo hi : Int} (hx : HasValue x n)
    (hlo : lo ≤ n) (hhi : n ≤ hi) : castSingle lo hi x = n := by
  rw [castSingle_of_hasValue hx, truncate_intCast]
  omega

/-- A NaN converts to zero. -/
theorem castSingle_of_unpack_notANumber {x : Float32} (h : x.toModel.unpack = .notANumber)
    (lo hi : Int) : castSingle lo hi x = 0 := by
  rw [Float32.unpack_toModel] at h
  unfold castSingle
  generalize Format.single.unpack x.toBits.toNat = u at h ⊢
  cases u with
  | nan => rfl
  | infinite b => cases b <;> cases h
  | finite b m e => rcases m with _ | m <;> cases b <;> cases h

end VoiceBench.Binary
