import Mathlib
import VoiceBench.Analysis.Delay
import VoiceBench.Spectrum.Transform

/-!
# Sliding correlation windows

An estimator slides a window of `window` samples over two signals, advancing by `hop`, and uses
a window while it ends strictly before the common length: the windows used on `len` samples are
exactly the `k` with `k * hop + window < len` (`lt_numWindows_iff`), so `numWindows` counts them
(`ncard_windowStarts`). The count is written in closed form, `(len - window - 1) / hop + 1`, and
the lemma checks it against the loop bound, multiples of the hop included.

`analyze` refuses signals too short for one window and otherwise computes one result per window,
in order (`analyze_eq_ok`). Each window reads the slices of both signals at its start, which lie
inside both signals, and its correlation has one entry per lag, so the running sums of the
correlations keep that length (`size_meanSums`). Every lag the analysis reports, per window or
overall, is then a lag of the axis `-(window - 1) .. window - 1` (`mem_lagAxis`).

The main statement, `analyze_slides_windows`, collects these facts for every estimator that
`new` accepts; `WindowedAnalysis` names what a successful analysis holds.
-/

namespace VoiceBench.Analysis

open Spectrum

variable {fft : Fft}

/-! ## Correlations and their peaks -/

/-- The full correlation of two non-empty signals has one entry per lag. -/
theorem size_correlateFull {a b : Array Float32} (ha : a.size ≠ 0) (hb : b.size ≠ 0) :
    (correlateFull fft a b).size = a.size + b.size - 1 := by
  have ha' : a.isEmpty = false := by simpa [Array.isEmpty_iff_size_eq_zero] using ha
  have hb' : b.isEmpty = false := by simpa [Array.isEmpty_iff_size_eq_zero] using hb
  simp [correlateFull, ha', hb']

/-- The peak of a sequence is found at one of its indices. -/
theorem peakAbs_index_lt {xs : Array Float32} :
    ∀ {i : Nat} {v : Float32}, peakAbs xs = some (i, v) → i < xs.size := by
  unfold peakAbs
  -- the scan only ever keeps an index it has read
  refine List.foldlRecOn (motive := fun best => ∀ {i v}, best = some (i, v) → i < xs.size)
    _ _ (fun h => by cases h) ?_
  rintro best hbest ⟨v, k⟩ hk i' v' h
  have hk' : k < xs.size := by
    simpa using (List.mem_zipIdx hk).2.1
  rcases best with _ | ⟨j, w⟩
  · simp only [peakStep, Option.some.injEq, Prod.mk.injEq] at h
    omega
  · simp only [peakStep] at h
    split_ifs at h
    · exact hbest h
    · simp only [Option.some.injEq, Prod.mk.injEq] at h
      omega

/-- The lag axis of windows of `n` samples: lag `k - (n - 1)` at index `k`, for the `2n - 1`
entries of a full correlation. -/
def lagAxis (n : Nat) : Array Int :=
  (Array.range (2 * n - 1)).map fun (k : Nat) => (k : Int) - (n - 1 : Nat)

@[simp] theorem size_lagAxis (n : Nat) : (lagAxis n).size = 2 * n - 1 := by
  simp [lagAxis]

theorem getElem_lagAxis (n k : Nat) (hk : k < (lagAxis n).size) :
    (lagAxis n)[k] = (k : Int) - (n - 1 : Nat) := by
  simp [lagAxis]

/-- The lags of the axis are those of magnitude below the window. -/
theorem mem_lagAxis {n : Nat} {l : Int} : l ∈ lagAxis n ↔ l.natAbs < n := by
  simp only [lagAxis, Array.mem_map, Array.mem_range]
  constructor
  · rintro ⟨k, hk, rfl⟩
    omega
  · intro hl
    exact ⟨(l + (n - 1 : Nat)).toNat, by omega, by omega⟩

/-- The index at `k` of a correlation of `2n - 1` entries, shifted to a lag, lies on the axis. -/
theorem sub_mem_lagAxis {n k : Nat} (hk : k < 2 * n - 1) : (k : Int) - (n - 1 : Nat) ∈ lagAxis n :=
  mem_lagAxis.2 (by omega)

/-- Folding a step that updates a running value and records one result per element: the
results come out in reverse order, ahead of those recorded before. -/
theorem foldl_accumulate {α β γ : Type} (F : α → γ → α) (f : γ → β) (l : List γ) (s : α)
    (ws : List β) :
    l.foldl (fun acc i => (F acc.1 i, f i :: acc.2)) (s, ws) =
      (l.foldl F s, (l.map f).reverse ++ ws) := by
  induction l generalizing s ws with
  | nil => simp
  | cons i l ih => simp [ih]

namespace DelayEstimator

/-! ## The estimators `new` accepts and the windows they use -/

/-- An estimator that `new` accepts has the parameters it was given: a window of at least one
sample, a hop in `1..=window` and a positive rate. -/
theorem new_eq_ok {window hop rate : Nat} {est : DelayEstimator}
    (h : DelayEstimator.new window hop rate = .ok est) :
    est = ⟨window, hop, rate⟩ ∧ 0 < window ∧ 0 < hop ∧ hop ≤ window ∧ 0 < rate := by
  unfold DelayEstimator.new at h
  split_ifs at h with h0 h1 h2
  cases h
  exact ⟨rfl, by omega, by omega, by omega, by omega⟩

/-- `new` accepts every window of at least one sample, hop in `1..=window` and positive rate. -/
theorem new_of_params {window hop rate : Nat} (hw : 0 < window) (hhop : 0 < hop)
    (hle : hop ≤ window) (hrate : 0 < rate) :
    DelayEstimator.new window hop rate = .ok ⟨window, hop, rate⟩ := by
  unfold DelayEstimator.new
  rw [if_neg (by omega), if_neg (by omega), if_neg (by omega)]

/-- A window is used exactly when it ends strictly before the common length. -/
theorem lt_numWindows_iff (est : DelayEstimator) (hhop : 0 < est.hop) (len k : Nat) :
    k < est.numWindows len ↔ k * est.hop + est.window < len := by
  unfold numWindows
  split_ifs with hle
  · omega
  · rw [Nat.lt_succ_iff, Nat.le_div_iff_mul_le hhop]
    omega

/-- `numWindows` counts the window starts that the strict bound admits. -/
theorem ncard_windowStarts (est : DelayEstimator) (hhop : 0 < est.hop) (len : Nat) :
    Set.ncard {k | k * est.hop + est.window < len} = est.numWindows len := by
  have hset : {k | k * est.hop + est.window < len} = ↑(Finset.range (est.numWindows len)) := by
    ext k
    simp [lt_numWindows_iff est hhop]
  rw [hset, Set.ncard_coe_finset, Finset.card_range]

/-- A window in use lies inside both signals. -/
theorem window_le_of_lt_numWindows (est : DelayEstimator) (hhop : 0 < est.hop)
    {a b : Array Float32} {i : Nat} (hi : i < est.numWindows (min a.size b.size)) :
    i * est.hop + est.window ≤ a.size ∧ i * est.hop + est.window ≤ b.size := by
  have := (lt_numWindows_iff est hhop _ i).1 hi
  omega

/-! ## One window -/

section
variable (est : DelayEstimator) (a b : Array Float32) (i : Nat)

/-- A window reports its own index. -/
theorem index_windowResult : (est.windowResult fft a b i).1.index = i := rfl

/-- A window's lag is the index of its correlation's peak shifted by `window - 1`, or lag zero
for a correlation with no peak. -/
theorem lag_windowResult :
    (est.windowResult fft a b i).1.lag =
      ((peakAbs (est.windowResult fft a b i).2).getD (est.window - 1, 0)).1 - (est.window - 1 : Nat) :=
  rfl

/-- A window reads nothing of the signals but the slices at its start. -/
theorem windowResult_of_slices {a' b' : Array Float32}
    (ha : a'.extract (i * est.hop) (i * est.hop + est.window) =
      a.extract (i * est.hop) (i * est.hop + est.window))
    (hb : b'.extract (i * est.hop) (i * est.hop + est.window) =
      b.extract (i * est.hop) (i * est.hop + est.window)) :
    est.windowResult fft a' b' i = est.windowResult fft a b i := by
  simp only [windowResult, ha, hb]

variable {est a b i}

/-- The correlation of a window inside both signals has one entry per lag. -/
theorem size_windowCorrelation (hw : 0 < est.window) (ha : i * est.hop + est.window ≤ a.size)
    (hb : i * est.hop + est.window ≤ b.size) :
    (est.windowResult fft a b i).2.size = 2 * est.window - 1 := by
  have hsa : (a.extract (i * est.hop) (i * est.hop + est.window)).size = est.window := by
    simp; omega
  have hsb : (b.extract (i * est.hop) (i * est.hop + est.window)).size = est.window := by
    simp; omega
  show (correlateFull fft _ _).size = _
  rw [size_correlateFull (by omega) (by omega), hsa, hsb]
  omega

/-- The lag of a window inside both signals lies on the lag axis. -/
theorem lag_mem_lagAxis (hw : 0 < est.window) (ha : i * est.hop + est.window ≤ a.size)
    (hb : i * est.hop + est.window ≤ b.size) :
    (est.windowResult fft a b i).1.lag ∈ lagAxis est.window := by
  have hsize : (est.windowResult fft a b i).2.size = 2 * est.window - 1 :=
    size_windowCorrelation hw ha hb
  rw [lag_windowResult]
  cases hp : peakAbs (est.windowResult fft a b i).2 with
  | none => exact sub_mem_lagAxis (by simp only [Option.getD_none]; omega)
  | some p =>
    have := peakAbs_index_lt hp
    exact sub_mem_lagAxis (by simp only [Option.getD_some]; omega)

end

/-! ## The whole analysis -/

/-- The running sums of the correlations of the first `count` windows, from zeros. -/
def meanSums (fft : Fft) (est : DelayEstimator) (a b : Array Float32) (count : Nat) : Array Float :=
  (List.range count).foldl
    (fun s i => Array.zipWith (fun s c => s + c.toFloat) s (est.windowResult fft a b i).2)
    (Array.replicate (2 * est.window - 1) 0)

/-- Sums over windows whose correlations have one entry per lag keep one entry per lag. -/
theorem size_meanSums {est : DelayEstimator} {a b : Array Float32} {count : Nat}
    (hcorr : ∀ i < count, (est.windowResult fft a b i).2.size = 2 * est.window - 1) :
    (est.meanSums fft a b count).size = 2 * est.window - 1 := by
  induction count with
  | zero => simp [meanSums]
  | succ c ih =>
    have hc : (est.meanSums fft a b c).size = 2 * est.window - 1 :=
      ih fun i hi => hcorr i (by omega)
    have hsum : est.meanSums fft a b (c + 1) = Array.zipWith (fun s x => s + x.toFloat)
        (est.meanSums fft a b c) (est.windowResult fft a b c).2 := by
      simp only [meanSums, List.range_succ, List.foldl_append, List.foldl_cons, List.foldl_nil]
    rw [hsum, Array.size_zipWith, hc, hcorr c (by omega), Nat.min_self]

/-- When one window fits, the analysis lists the windows in order and averages the running
sums of their correlations over the lag axis. -/
theorem analyze_eq_ok (est : DelayEstimator) (a b : Array Float32)
    (h : est.numWindows (min a.size b.size) ≠ 0) :
    est.analyze fft a b = .ok
      { window := est.window
        hop := est.hop
        sampleRate := est.sampleRate
        windows := (List.range (est.numWindows (min a.size b.size))).map
          fun i => (est.windowResult fft a b i).1
        lags := lagAxis est.window
        meanCorrelation := (est.meanSums fft a b (est.numWindows (min a.size b.size))).map
          fun s => (s / Float.ofNat (est.numWindows (min a.size b.size))).toFloat32 } := by
  unfold analyze
  rw [if_neg h]
  simp only
  rw [foldl_accumulate
    (fun s i => Array.zipWith (fun s c => s + c.toFloat) s (est.windowResult fft a b i).2)
    (fun i => (est.windowResult fft a b i).1)]
  simp [meanSums, lagAxis]

/-- The analysis fails exactly when no window fits, with the common length and the window
length plus one, a word that wraps. -/
theorem analyze_eq_error_iff (est : DelayEstimator) (a b : Array Float32) (e : AnalysisError) :
    est.analyze fft a b = .error e ↔ est.numWindows (min a.size b.size) = 0 ∧
      e = .signalTooShort (min a.size b.size) ((est.window + 1) % Nat.pow 2 64) := by
  by_cases h : est.numWindows (min a.size b.size) = 0
  · simp only [analyze, h, if_true, Except.error.injEq, true_and]
    exact eq_comm
  · simp [analyze_eq_ok est a b h, h]

end DelayEstimator

/-- What a successful analysis of two signals by an estimator holds: one result per window
in use, window `i` with index `i` computed from the slices at `i * hop`, inside both signals,
the lag axis `-(window - 1) .. window - 1` and a mean correlation along it, and every reported
lag on the axis. -/
structure WindowedAnalysis (fft : Fft) (est : DelayEstimator) (a b : Array Float32)
    (r : DelayAnalysis) : Prop where
  length_windows : r.windows.length = est.numWindows (min a.size b.size)
  index_window : ∀ i (hi : i < r.windows.length), r.windows[i].index = i
  window_eq : ∀ i (hi : i < r.windows.length), r.windows[i] = (est.windowResult fft a b i).1
  window_of_slices : ∀ i (hi : i < r.windows.length) (a' b' : Array Float32),
    a'.extract (i * est.hop) (i * est.hop + est.window) =
      a.extract (i * est.hop) (i * est.hop + est.window) →
    b'.extract (i * est.hop) (i * est.hop + est.window) =
      b.extract (i * est.hop) (i * est.hop + est.window) →
    r.windows[i] = (est.windowResult fft a' b' i).1
  slices_inside : ∀ i < r.windows.length,
    i * est.hop + est.window ≤ a.size ∧ i * est.hop + est.window ≤ b.size
  size_lags : r.lags.size = 2 * est.window - 1
  getElem_lags : ∀ k (hk : k < r.lags.size), r.lags[k] = (k : Int) - (est.window - 1 : Nat)
  size_meanCorrelation : r.meanCorrelation.size = r.lags.size
  lag_mem : ∀ w ∈ r.windows, w.lag ∈ r.lags
  overallLag_mem : ∀ l, r.overallLag = some l → l ∈ r.lags

namespace DelayEstimator

/-- The overall lag is read off the lag axis at an index of the mean correlation. -/
theorem overallLag_mem_lags {r : DelayAnalysis} (hsize : r.meanCorrelation.size = r.lags.size)
    {l : Int} (h : r.overallLag = some l) : l ∈ r.lags := by
  simp only [DelayAnalysis.overallLag, Option.map_eq_some_iff] at h
  obtain ⟨⟨i, v⟩, hp, rfl⟩ := h
  have hi : i < r.lags.size := hsize ▸ peakAbs_index_lt hp
  simp only [Array.getD_eq_getD_getElem?, Array.getElem?_eq_getElem hi, Option.getD_some]
  exact Array.getElem_mem hi

/-- An estimator with a window and a hop analyses signals long enough for one window into a
`WindowedAnalysis`. -/
theorem windowedAnalysis_of_ne_zero {est : DelayEstimator} (hw : 0 < est.window)
    (hhop : 0 < est.hop) {a b : Array Float32} (h : est.numWindows (min a.size b.size) ≠ 0) :
    ∃ r, est.analyze fft a b = .ok r ∧ WindowedAnalysis fft est a b r := by
  have hinside := fun i (hi : i < est.numWindows (min a.size b.size)) =>
    window_le_of_lt_numWindows est hhop hi
  have hmean : (est.meanSums fft a b (est.numWindows (min a.size b.size))).size =
      2 * est.window - 1 :=
    size_meanSums fun i hi => size_windowCorrelation hw (hinside i hi).1 (hinside i hi).2
  refine ⟨_, analyze_eq_ok est a b h, ?_⟩
  constructor
  case length_windows => simp
  case index_window => intro i hi; simp [index_windowResult]
  case window_eq => intro i hi; simp
  case window_of_slices =>
    intro i hi a' b' ha hb
    simp only [List.getElem_map, List.getElem_range]
    rw [windowResult_of_slices est a b i ha hb]
  case slices_inside => intro i hi; exact hinside i (by simpa using hi)
  case size_lags => exact size_lagAxis _
  case getElem_lags => exact getElem_lagAxis _
  case size_meanCorrelation => simp [hmean]
  case lag_mem =>
    intro w hw'
    obtain ⟨i, hi, rfl⟩ := List.mem_map.1 hw'
    have hi' := List.mem_range.1 hi
    exact lag_mem_lagAxis hw (hinside i hi').1 (hinside i hi').2
  case overallLag_mem =>
    intro l hl
    exact overallLag_mem_lags (by simp [hmean]) hl

end DelayEstimator

/-- Delay windows. For every estimator that `new` accepts, the windows used on `len` samples are
the `k` with `k * hop + window < len`, and `numWindows` counts them; `analyze` fails, with a
signal-too-short error, exactly when no window fits the common length of the two signals, and
otherwise returns a `WindowedAnalysis`. -/
theorem analyze_slides_windows (fft : Fft) {window hop rate : Nat} {est : DelayEstimator}
    (hest : DelayEstimator.new window hop rate = .ok est) (a b : Array Float32) :
    (∀ len k, k < est.numWindows len ↔ k * est.hop + est.window < len) ∧
    (∀ len, Set.ncard {k | k * est.hop + est.window < len} = est.numWindows len) ∧
    (∀ e, est.analyze fft a b = .error e ↔ est.numWindows (min a.size b.size) = 0 ∧
      e = .signalTooShort (min a.size b.size) ((est.window + 1) % Nat.pow 2 64)) ∧
    (est.numWindows (min a.size b.size) ≠ 0 →
      ∃ r, est.analyze fft a b = .ok r ∧ WindowedAnalysis fft est a b r) := by
  obtain ⟨rfl, hw, hhop, -, -⟩ := DelayEstimator.new_eq_ok hest
  exact ⟨DelayEstimator.lt_numWindows_iff _ hhop, DelayEstimator.ncard_windowStarts _ hhop,
    DelayEstimator.analyze_eq_error_iff _ a b,
    fun h => DelayEstimator.windowedAnalysis_of_ne_zero hw hhop h⟩

/-- An estimator of two-sample windows advancing by one, on signals of three and four samples:
one window fits the common length of three. -/
theorem analyze_slides_windows_three_samples :
    DelayEstimator.new 2 1 16000 = .ok ⟨2, 1, 16000⟩ ∧
    ((∀ len k, k < (⟨2, 1, 16000⟩ : DelayEstimator).numWindows len ↔ k * 1 + 2 < len) ∧
    (∀ len, Set.ncard {k | k * 1 + 2 < len} = (⟨2, 1, 16000⟩ : DelayEstimator).numWindows len) ∧
    (∀ e, (⟨2, 1, 16000⟩ : DelayEstimator).analyze Fft.builtin #[1, 2, 3] #[3, 2, 1, 0] =
        .error e ↔
      (⟨2, 1, 16000⟩ : DelayEstimator).numWindows (min 3 4) = 0 ∧
        e = .signalTooShort (min 3 4) ((2 + 1) % Nat.pow 2 64)) ∧
    ((⟨2, 1, 16000⟩ : DelayEstimator).numWindows (min 3 4) ≠ 0 →
      ∃ r, (⟨2, 1, 16000⟩ : DelayEstimator).analyze Fft.builtin #[1, 2, 3] #[3, 2, 1, 0] =
        .ok r ∧
        WindowedAnalysis Fft.builtin ⟨2, 1, 16000⟩ #[1, 2, 3] #[3, 2, 1, 0] r)) := by
  have hnew : DelayEstimator.new 2 1 16000 = .ok ⟨2, 1, 16000⟩ := rfl
  exact ⟨hnew, analyze_slides_windows Fft.builtin hnew #[1, 2, 3] #[3, 2, 1, 0]⟩

end VoiceBench.Analysis
