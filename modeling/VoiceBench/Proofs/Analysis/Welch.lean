import Mathlib
import VoiceBench.Analysis.Coherence
import VoiceBench.Spectrum.Transform
import VoiceBench.Proofs.Binary.UnitInterval

/-!
# Welch segments and coherence

An analyzer built by `withOverlap` cuts signals into segments of `segmentLen` samples that start
every `hop` samples, where the hop is the segment length less the overlap in samples: the
segment length times the overlap ratio, rounded to a single and truncated. For a ratio in
`[0, 1)` that product stays below the segment length (`countOfSingle_mul_lt`), so the hop lies in
`1 ..= segmentLen`, and the segments used on `len` samples are exactly the `k` with
`k * hop + segmentLen ≤ len` (`lt_numSegments_iff`), which `numSegments` counts.

`analyze` fails on signals of different lengths, then on signals shorter than one segment, and
otherwise accumulates one set of sums per bin over the segments (`densitySums`), reading only the
slices of the segments. Each bin's coherence is in `[0, 1]` whatever the sums hold
(`Densities.coherence_mem_Icc`): squared magnitudes are never below zero, the ratio is taken only
over a positive denominator, a ratio of one or more, or a NaN, is replaced by one, and a double in
`[0, 1]` converts to a single in `[0, 1]`.

The main statement, `withOverlap_segments_coherence`, collects these facts for every analyzer
that `withOverlap` accepts; `WelchSpectrum` names what a successful analysis holds.
-/

namespace VoiceBench.Analysis

open Binary Spectrum

/-! ## The overlap in samples -/

/-- A single's sample count is zero for a zero. -/
theorem countOfSingle_of_unpack_zero {x : Float32} {s : Float.Model.UnpackedFloat.Sign}
    (h : x.toModel.unpack = .zero s) : countOfSingle x = 0 := by
  show x.toModel.unpack.toUInt64.toNat = 0
  rw [h]
  rfl

/-- A positive single's sample count is at most the single. -/
theorem countOfSingle_le_of_unpack {x : Float32} {m : Nat} {e : Int} {hm : 0 < m}
    (h : x.toModel.unpack = .finite .positive m e hm) : (countOfSingle x : ℚ) ≤ m * 2 ^ e := by
  show (x.toModel.unpack.toUInt64.toNat : ℚ) ≤ _
  rw [h]
  exact toUInt64_finite_le m e hm

/-- `n` times an overlap in `[0, 1)`, rounded to a single and truncated, is below `n`: the
product of singles is below `singleOfNat n`, so below `n`, and truncation only lowers it. An `n`
so large that `singleOfNat n` is an infinity is beyond every sample count. -/
theorem countOfSingle_mul_lt {n : Nat} (hn : 1 ≤ n) {ov : Float32} (h0 : 0 ≤ ov) (h1 : ov < 1) :
    countOfSingle (singleOfNat n * ov) < n := by
  rcases unpack_singleOfNat hn with ⟨-, hbig⟩ | ⟨q, e, hq, hN, he, hval⟩
  · have hword : countOfSingle (singleOfNat n * ov) < 2 ^ 64 := UInt64.toNat_lt _
    have : (2 : Nat) ^ 64 ≤ 2 ^ 127 := Nat.pow_le_pow_right (by norm_num) (by norm_num)
    omega
  · rcases Float32.mul_lt_of_mem_Ico hN (by omega) h0 h1 with
      ⟨s, hzero⟩ | ⟨m, e', hm, hprod, hfields, hlt⟩
    · rw [countOfSingle_of_unpack_zero hzero]
      omega
    · have hbelow : (m : ℚ) * 2 ^ e' < n :=
        lt_natCast_of_lt_roundAt hn hfields.significand_lt (hval ▸ hlt)
      have := (countOfSingle_le_of_unpack hprod).trans_lt hbelow
      exact_mod_cast this

namespace CoherenceAnalyzer

/-- `withOverlap` accepts a segment length of at least two, a ratio in `[0, 1)` and a positive
rate, and its hop is the segment length less the overlap in samples. -/
theorem withOverlap_eq_ok {rate ov : Float32} {n : Nat} (hn : 2 ≤ n) (h0 : 0 ≤ ov) (h1 : ov < 1)
    (hrate : 0 < rate) :
    withOverlap rate n ov = .ok ⟨rate, n, n - countOfSingle (singleOfNat n * ov), .hann⟩ := by
  have hnan : rate.isNaN = false := Float32.isNaN_eq_false_of_lt hrate
  have hpos : ¬rate ≤ 0 := fun hle =>
    absurd ((Float32.lt_iff_key_lt rfl hnan).1 hrate)
      (not_lt.2 ((Float32.le_iff_key_le hnan rfl).1 hle))
  unfold withOverlap
  rw [if_neg (by omega), if_neg (by simp [h0, h1]), if_neg hpos]

/-- An analyzer that `withOverlap` accepts has a hop in `1 ..= segmentLen`. -/
theorem hop_mem_of_withOverlap {rate ov : Float32} {n : Nat} {an : CoherenceAnalyzer}
    (h : withOverlap rate n ov = .ok an) : an.segmentLen = n ∧ 1 ≤ an.hop ∧ an.hop ≤ n := by
  unfold withOverlap at h
  split_ifs at h with hn hov hrate
  cases h
  have hov' : 0 ≤ ov ∧ ov < 1 := by simpa using hov
  have hcount := countOfSingle_mul_lt (by omega : 1 ≤ n) hov'.1 hov'.2
  exact ⟨rfl, by dsimp only; omega, by dsimp only; omega⟩

/-- A segment is used exactly when it fits in the signal. -/
theorem lt_numSegments_iff (an : CoherenceAnalyzer) (hhop : 0 < an.hop) (len k : Nat) :
    k < an.numSegments len ↔ k * an.hop + an.segmentLen ≤ len := by
  unfold numSegments
  split_ifs with hlt
  · omega
  · rw [Nat.lt_succ_iff, Nat.le_div_iff_mul_le hhop]
    omega

/-- `numSegments` counts the segment starts that fit. -/
theorem ncard_segmentStarts (an : CoherenceAnalyzer) (hhop : 0 < an.hop) (len : Nat) :
    Set.ncard {k | k * an.hop + an.segmentLen ≤ len} = an.numSegments len := by
  have hset : {k | k * an.hop + an.segmentLen ≤ len} = ↑(Finset.range (an.numSegments len)) := by
    ext k
    simp [lt_numSegments_iff an hhop]
  rw [hset, Set.ncard_coe_finset, Finset.card_range]

/-! ## The coherence of one bin -/

/-- The coherence of a bin is in `[0, 1]` whatever its sums hold, NaNs and infinities included:
zero unless the denominator is above zero, and otherwise a ratio that is not below zero, capped
at one, converted to a single. -/
theorem Densities.coherence_mem_Icc (d : Densities) :
    0 ≤ d.coherence ∧ d.coherence ≤ 1 := by
  unfold Densities.coherence
  dsimp only
  split_ifs with hpos hlt
  · exact singleOfDouble_mem_Icc (Float.notBelowZero_div (Float.notBelowZero_sumSquares _ _) hpos)
      (Float.le_of_lt hlt)
  · exact singleOfDouble_mem_Icc trivial (by decide)
  · exact Float32.mem_Icc_of_unpack (Or.inl ⟨.positive, rfl⟩)

end CoherenceAnalyzer

/-! ## The whole analysis -/

/-- The frequency axis has one entry per bin. -/
@[simp] theorem size_binFrequencies (bins : Nat) (rate : Float32) :
    (binFrequencies bins rate).size = bins := by
  unfold binFrequencies
  split <;> simp

namespace CoherenceAnalyzer

/-- The running sums of the first `count` segments, one set per bin, from zeros. -/
def densitySums (fft : Fft) (an : CoherenceAnalyzer) (x y : Array Float32) (count : Nat) : Array Densities :=
  (List.range count).foldl (fun (acc : Array Densities) s =>
    let start := s * an.hop
    let sx := segmentSpectrum fft (an.window.coefficients an.segmentLen)
      (x.extract start (start + an.segmentLen))
    let sy := segmentSpectrum fft (an.window.coefficients an.segmentLen)
      (y.extract start (start + an.segmentLen))
    acc.mapIdx fun i d => d.add (entry sx i) (entry sy i))
    (Array.replicate (an.segmentLen / 2 + 1) {})

variable {fft : Fft} {an : CoherenceAnalyzer} {x y : Array Float32}

/-- The sums keep one entry per bin: each segment updates every bin in place. -/
@[simp] theorem size_densitySums (count : Nat) :
    (an.densitySums fft x y count).size = an.segmentLen / 2 + 1 := by
  induction count with
  | zero => simp [densitySums]
  | succ c ih =>
    simp only [densitySums, List.range_succ, List.foldl_append, List.foldl_cons, List.foldl_nil,
      Array.size_mapIdx] at ih ⊢
    exact ih

/-- The sums read nothing of the signals but the slices of the segments they add. -/
theorem densitySums_of_slices {x' y' : Array Float32} {count : Nat}
    (h : ∀ k < count,
      x'.extract (k * an.hop) (k * an.hop + an.segmentLen) =
          x.extract (k * an.hop) (k * an.hop + an.segmentLen) ∧
        y'.extract (k * an.hop) (k * an.hop + an.segmentLen) =
          y.extract (k * an.hop) (k * an.hop + an.segmentLen)) :
    an.densitySums fft x' y' count = an.densitySums fft x y count := by
  unfold densitySums
  refine List.foldl_ext _ _ _ fun acc k hk => ?_
  obtain ⟨hx, hy⟩ := h k (List.mem_range.1 hk)
  simp only [hx, hy]

theorem numSegments_eq_zero_iff (an : CoherenceAnalyzer) (len : Nat) :
    an.numSegments len = 0 ↔ len < an.segmentLen := by
  unfold numSegments
  split_ifs with hlt
  · simp only [true_iff]
    exact hlt
  · simp only [false_iff]
    exact hlt

/-- On signals of one length holding a segment, the analysis returns the frequency axis, the
coherence of the sums of every segment, and the number of segments. -/
theorem analyze_eq_ok (hsize : x.size = y.size) (hlen : an.segmentLen ≤ x.size) :
    an.analyze fft x y = .ok
      { frequencies := binFrequencies (an.segmentLen / 2 + 1) an.sampleRate
        values := (an.densitySums fft x y (an.numSegments x.size)).map Densities.coherence
        segments := an.numSegments x.size } := by
  have hseg : an.numSegments x.size ≠ 0 := by
    rw [ne_eq, numSegments_eq_zero_iff]
    omega
  unfold analyze
  rw [if_neg (not_not.2 hsize), if_neg hseg]
  rfl

/-- The analysis fails exactly on signals of different lengths, naming both, and on signals of
one length shorter than a segment, naming the length and the segment length. -/
theorem analyze_eq_error_iff (e : AnalysisError) :
    an.analyze fft x y = .error e ↔
      (x.size ≠ y.size ∧ e = .lengthMismatch x.size y.size) ∨
        (x.size = y.size ∧ x.size < an.segmentLen ∧ e = .signalTooShort x.size an.segmentLen) := by
  by_cases hsize : x.size = y.size
  · by_cases hlen : x.size < an.segmentLen
    · have hseg : an.numSegments x.size = 0 := (numSegments_eq_zero_iff an _).2 hlen
      unfold analyze
      rw [if_neg (not_not.2 hsize), if_pos hseg, Except.error.injEq]
      constructor
      · rintro rfl
        exact Or.inr ⟨hsize, hlen, rfl⟩
      · rintro (⟨hne, -⟩ | ⟨-, -, rfl⟩)
        · exact absurd hsize hne
        · rfl
    · rw [analyze_eq_ok hsize (by omega)]
      refine ⟨fun h => ?_, ?_⟩
      · cases h
      rintro (⟨hne, -⟩ | ⟨-, hlt, -⟩)
      · exact absurd hsize hne
      · exact absurd hlt hlen
  · simp only [analyze, hsize, ne_eq, not_false_eq_true, if_true, Except.error.injEq, true_and,
      false_and, or_false]
    exact eq_comm

end CoherenceAnalyzer

/-- What a successful analysis of two signals holds: one segment for each start that fits,
every segment inside both signals, a result that depends on the signals only through the slices
of the segments, one frequency and one coherence value per bin, and every value in `[0, 1]`. -/
structure WelchSpectrum (fft : Fft) (an : CoherenceAnalyzer) (x y : Array Float32) (c : Coherence) : Prop where
  segments_eq : c.segments = an.numSegments x.size
  slices_inside : ∀ k < c.segments,
    k * an.hop + an.segmentLen ≤ x.size ∧ k * an.hop + an.segmentLen ≤ y.size
  of_slices : ∀ x' y' : Array Float32, x'.size = x.size → y'.size = y.size →
    (∀ k < c.segments,
      x'.extract (k * an.hop) (k * an.hop + an.segmentLen) =
          x.extract (k * an.hop) (k * an.hop + an.segmentLen) ∧
        y'.extract (k * an.hop) (k * an.hop + an.segmentLen) =
          y.extract (k * an.hop) (k * an.hop + an.segmentLen)) →
    an.analyze fft x' y' = .ok c
  size_frequencies : c.frequencies.size = an.segmentLen / 2 + 1
  size_values : c.values.size = an.segmentLen / 2 + 1
  values_mem_Icc : ∀ v ∈ c.values, 0 ≤ v ∧ v ≤ 1

namespace CoherenceAnalyzer

/-- An analyzer with a positive hop analyses two signals of one length holding a segment into a
`WelchSpectrum`. -/
theorem welchSpectrum_of_le {fft : Fft} {an : CoherenceAnalyzer} (hhop : 0 < an.hop) {x y : Array Float32}
    (hsize : x.size = y.size) (hlen : an.segmentLen ≤ x.size) :
    ∃ c, an.analyze fft x y = .ok c ∧ WelchSpectrum fft an x y c := by
  refine ⟨_, analyze_eq_ok hsize hlen, ?_⟩
  constructor
  case segments_eq => rfl
  case slices_inside =>
    intro k hk
    have := (lt_numSegments_iff an hhop _ k).1 hk
    omega
  case of_slices =>
    intro x' y' hx hy hslices
    rw [analyze_eq_ok (hx.trans (hsize.trans hy.symm)) (by omega), hx,
      densitySums_of_slices hslices]
  case size_frequencies => simp
  case size_values => simp
  case values_mem_Icc =>
    intro v hv
    obtain ⟨d, -, rfl⟩ := Array.mem_map.1 hv
    exact d.coherence_mem_Icc

end CoherenceAnalyzer

/-- Welch segments. For a segment length of at least two, an overlap ratio in `[0, 1)` and a
positive rate, `withOverlap` returns an analyzer whose hop lies in `1 ..= segmentLen`, the
overlap in samples being rounded through singles; `numSegments len` counts the `k` with
`k * hop + segmentLen ≤ len`; and `analyze` fails with a length mismatch exactly on signals of
different lengths, then with a signal-too-short error exactly on signals shorter than a segment,
and otherwise returns a `WelchSpectrum`. -/
theorem withOverlap_segments_coherence (fft : Fft) {rate ov : Float32} {n : Nat} (hn : 2 ≤ n) (h0 : 0 ≤ ov)
    (h1 : ov < 1) (hrate : 0 < rate) :
    ∃ an, CoherenceAnalyzer.withOverlap rate n ov = .ok an ∧ an.segmentLen = n ∧ 1 ≤ an.hop ∧
      an.hop ≤ n ∧
      (∀ len, Set.ncard {k | k * an.hop + an.segmentLen ≤ len} = an.numSegments len) ∧
      ∀ x y : Array Float32,
        (∀ e, an.analyze fft x y = .error e ↔
          (x.size ≠ y.size ∧ e = .lengthMismatch x.size y.size) ∨
            (x.size = y.size ∧ x.size < an.segmentLen ∧
              e = .signalTooShort x.size an.segmentLen)) ∧
        (x.size = y.size → an.segmentLen ≤ x.size →
          ∃ c, an.analyze fft x y = .ok c ∧ WelchSpectrum fft an x y c) := by
  have hok := CoherenceAnalyzer.withOverlap_eq_ok hn h0 h1 hrate
  obtain ⟨hlen, hhop, hle⟩ := CoherenceAnalyzer.hop_mem_of_withOverlap hok
  refine ⟨_, hok, hlen, hhop, hle, CoherenceAnalyzer.ncard_segmentStarts _ hhop,
    fun x y => ⟨CoherenceAnalyzer.analyze_eq_error_iff, fun hsize hseg => ?_⟩⟩
  exact CoherenceAnalyzer.welchSpectrum_of_le hhop hsize hseg

/-- Segments of four samples at half overlap and 16 kHz. -/
theorem withOverlap_segments_coherence_half_overlap :
    2 ≤ 4 ∧ (0 : Float32) ≤ 0.5 ∧ (0.5 : Float32) < 1 ∧ (0 : Float32) < 16000 ∧
    ∃ an, CoherenceAnalyzer.withOverlap 16000 4 0.5 = .ok an ∧ an.segmentLen = 4 ∧ 1 ≤ an.hop ∧
      an.hop ≤ 4 ∧
      (∀ len, Set.ncard {k | k * an.hop + an.segmentLen ≤ len} = an.numSegments len) ∧
      ∀ x y : Array Float32,
        (∀ e, an.analyze Fft.builtin x y = .error e ↔
          (x.size ≠ y.size ∧ e = .lengthMismatch x.size y.size) ∨
            (x.size = y.size ∧ x.size < an.segmentLen ∧
              e = .signalTooShort x.size an.segmentLen)) ∧
        (x.size = y.size → an.segmentLen ≤ x.size →
          ∃ c, an.analyze Fft.builtin x y = .ok c ∧ WelchSpectrum Fft.builtin an x y c) :=
  ⟨by decide, by decide, by decide, by decide,
    withOverlap_segments_coherence Fft.builtin (by decide) (by decide) (by decide) (by decide)⟩

end VoiceBench.Analysis
