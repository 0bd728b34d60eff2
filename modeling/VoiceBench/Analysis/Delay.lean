import VoiceBench.Analysis.Correlation
import VoiceBench.Analysis.Error

/-!
# Delay tracking

A correlation window of `window` samples slides over two signals, advancing by `hop`; a
window starting at `start` is used while `start + window` is below the common length.
Each window yields the lag of its absolute correlation peak and the ratio of that peak to
the mean magnitude of its correlation, a confidence in the lag. The correlations of all
windows are averaged, in double precision, into one lag profile.

`DelayAnalysis.overallLag` is the lag of the peak of the averaged profile;
`DelayAnalysis.dominantLag` is the most frequent per-window lag, the smallest on ties.
-/

namespace VoiceBench.Analysis

open Binary Spectrum

/-- The result of one correlation window. -/
structure CorrelationWindow where
  index : Nat
  timeS : Float32
  lag : Int
  peakToAverage : Float32

/-- The delay analysis of a pair of signals. -/
structure DelayAnalysis where
  window : Nat
  hop : Nat
  sampleRate : Nat
  windows : List CorrelationWindow
  lags : Array Int
  meanCorrelation : Array Float32

/-- Lengths of the runs of equal neighbours, with their values. -/
def runLengths : List Int → List (Int × Nat)
  | [] => []
  | x :: rest =>
    match runLengths rest with
    | (y, n) :: more => if x = y then (y, n + 1) :: more else (x, 1) :: (y, n) :: more
    | [] => [(x, 1)]

/-- One step of the choice of the most frequent value among runs: a run takes the place of the
best so far only when it is strictly longer. -/
def pickRun (best : Option (Int × Nat)) (run : Int × Nat) : Option (Int × Nat) :=
  match best with
  | some (_, n) => if run.2 > n then some run else best
  | none => some run

namespace DelayAnalysis

/-- The lags of the windows in time order. -/
def lagSeries (d : DelayAnalysis) : List Int := d.windows.map (·.lag)

/-- The lag of the peak of the averaged correlation. -/
def overallLag (d : DelayAnalysis) : Option Int :=
  (peakAbs d.meanCorrelation).map fun (i, _) => d.lags.getD i 0

/-- The most frequent window lag; of equally frequent ones the smallest. -/
def dominantLag (d : DelayAnalysis) : Option Int :=
  ((runLengths (d.lagSeries.mergeSort (· ≤ ·))).foldl pickRun none).map (·.1)

end DelayAnalysis

/-- A sliding-window delay estimator. -/
structure DelayEstimator where
  window : Nat
  hop : Nat
  sampleRate : Nat

namespace DelayEstimator

/-- An estimator of `window`-sample windows advancing by `hop`: the window must hold a
sample, the hop lie in `1..=window`, the rate be positive, checked in that order. -/
def new (window hop sampleRate : Nat) : Except AnalysisError DelayEstimator :=
  if window = 0 then .error (.invalidParameter "window" "must be at least 1 sample")
  else if hop = 0 ∨ hop > window then
    .error (.invalidParameter "hop" s!"{hop} must be in 1..={window}")
  else if sampleRate = 0 then .error (.invalidParameter "sample_rate" "must be positive")
  else .ok ⟨window, hop, sampleRate⟩

/-- The number of windows used on signals of `len` samples. -/
def numWindows (est : DelayEstimator) (len : Nat) : Nat :=
  if len ≤ est.window then 0 else (len - est.window - 1) / est.hop + 1

/-- The analysis of one window: its result and its correlation. -/
def windowResult (fft : Fft) (est : DelayEstimator) (a b : Array Float32) (index : Nat) :
    CorrelationWindow × Array Float32 :=
  let n := est.window
  let start := index * est.hop
  let corr := correlateFull fft (a.extract start (start + n)) (b.extract start (start + n))
  let meanAbs := sumDoubles (corr.toList.map fun c => c.abs.toFloat) / Float.ofNat (2 * n - 1)
  let (peakIndex, peak) := (peakAbs corr).getD (n - 1, 0)
  let ratio : Float32 := if meanAbs > 0 then (peak.abs.toFloat / meanAbs).toFloat32 else 0
  ({ index
     timeS := singleOfNat (index * est.hop) / singleOfNat est.sampleRate
     lag := (peakIndex : Int) - (n - 1 : Nat)
     peakToAverage := ratio }, corr)

/-- Tracks the lag of `a` relative to `b` over their common length. Signals too short for a
single window are refused with the window length plus one, a 64-bit word that wraps. -/
def analyze (fft : Fft) (est : DelayEstimator) (a b : Array Float32) :
    Except AnalysisError DelayAnalysis :=
  let len := min a.size b.size
  let count := est.numWindows len
  if count = 0 then .error (.signalTooShort len ((est.window + 1) % Nat.pow 2 64))
  else
    let n := est.window
    let corrLen := 2 * n - 1
    let step (acc : Array Float × List CorrelationWindow) (index : Nat) :=
      let (w, corr) := est.windowResult fft a b index
      (Array.zipWith (fun s c => s + c.toFloat) acc.1 corr, w :: acc.2)
    let (sums, windows) := (List.range count).foldl step (Array.replicate corrLen 0, [])
    .ok { window := n
          hop := est.hop
          sampleRate := est.sampleRate
          windows := windows.reverse
          lags := (Array.range corrLen).map fun (k : Nat) => (k : Int) - (n - 1 : Nat)
          meanCorrelation := sums.map fun s => (s / Float.ofNat count).toFloat32 }

end DelayEstimator

end VoiceBench.Analysis
