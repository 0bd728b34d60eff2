import VoiceBench.Analysis.Basic
import VoiceBench.Analysis.Error
import VoiceBench.Binary.Text
import VoiceBench.Spectrum.Fft
import VoiceBench.Spectrum.Window
import VoiceBench.Spectrum.Magnitude

/-!
# Magnitude-squared coherence

Welch's estimate of `Cxy f = |Pxy f|² / (Pxx f * Pyy f)`: both signals are cut into
segments of `segmentLen` samples starting every `hop` samples; each segment has its mean
removed, is multiplied by the Hann window and transformed at its own length by a library of
transforms, and the
one-sided spectra are accumulated in double precision, `Pxx` and `Pyy` as squared
magnitudes and `Pxy` as `conj X * Y`. A bin whose denominator is not positive has coherence
zero; any other is capped at one. Absolute scaling cancels in the ratio and is not applied.

An analyzer overlaps segments by a ratio in `[0, 1)`; the overlap in samples is rounded
down, so the hop of an odd length at half overlap is the larger half.
-/

namespace VoiceBench.Analysis

open Binary Spectrum

/-- The coherence spectrum of one pair of signals. -/
structure Coherence where
  frequencies : Array Float32
  values : Array Float32
  segments : Nat

namespace Coherence

/-- The mean over all bins; zero when there are none. -/
def mean (c : Coherence) : Float32 :=
  if c.values.isEmpty then 0 else sumSingles c.values.toList / singleOfNat c.values.size

/-- The mean over the bins whose frequency lies in `[low, high]`, if there are any. -/
def bandMean (c : Coherence) (low high : Float32) : Option Float32 :=
  let (sum, count) := (c.frequencies.toList.zip c.values.toList).foldl
    (fun (acc : Float32 × Nat) (f, v) =>
      if low ≤ f ∧ f ≤ high then (acc.1 + v, acc.2 + 1) else acc) (0, 0)
  if count > 0 then some (sum / singleOfNat count) else none

end Coherence

/-- A Welch coherence estimator with a fixed segment layout. -/
structure CoherenceAnalyzer where
  sampleRate : Float32
  segmentLen : Nat
  hop : Nat
  window : Window := .hann

namespace CoherenceAnalyzer

/-- An analyzer whose segments overlap by the given ratio: the segment length must be at
least two, the ratio in `[0, 1)` and the rate positive, checked in that order. -/
def withOverlap (sampleRate : Float32) (segmentLen : Nat) (overlap : Float32) :
    Except AnalysisError CoherenceAnalyzer :=
  if segmentLen < 2 then
    .error (.invalidParameter "segment_len" s!"{segmentLen} is below the minimum of 2")
  else if !(0 ≤ overlap ∧ overlap < 1) then
    .error (.invalidParameter "overlap" s!"{singleText overlap} is outside [0, 1)")
  else if sampleRate ≤ 0 then
    .error (.invalidParameter "sample_rate" s!"{singleText sampleRate} must be positive")
  else
    let overlapping := countOfSingle (singleOfNat segmentLen * overlap)
    .ok { sampleRate, segmentLen, hop := segmentLen - overlapping }

/-- An analyzer whose segments overlap by half. -/
def new (sampleRate : Float32) (segmentLen : Nat) : Except AnalysisError CoherenceAnalyzer :=
  withOverlap sampleRate segmentLen 0.5

/-- The number of whole segments in `len` samples. -/
def numSegments (an : CoherenceAnalyzer) (len : Nat) : Nat :=
  if len < an.segmentLen then 0 else (len - an.segmentLen) / an.hop + 1

/-- The spectrum of one segment: its mean removed, windowed, transformed. -/
def segmentSpectrum (fft : Fft) (taps segment : Array Float32) : Array Complex32 :=
  let mean := sumSingles segment.toList / singleOfNat segment.size
  fft.transform .forward (Array.zipWith (fun s w => Complex32.ofReal ((s - mean) * w)) segment taps)

/-- Running sums of one bin: `Pxx`, `Pyy` and the parts of `Pxy`. -/
structure Densities where
  xx : Float := 0
  yy : Float := 0
  xyRe : Float := 0
  xyIm : Float := 0

/-- One segment's contribution to one bin. -/
def Densities.add (d : Densities) (a b : Complex32) : Densities :=
  let (ar, ai) := a.toDoubles
  let (br, bi) := b.toDoubles
  let ci := -ai
  { xx := d.xx + (ar * ar + ai * ai)
    yy := d.yy + (br * br + bi * bi)
    xyRe := d.xyRe + (ar * br - ci * bi)
    xyIm := d.xyIm + (ar * bi + ci * br) }

/-- The coherence of one bin from its sums: zero unless the denominator is positive,
otherwise the ratio capped at one, rounded to a single. -/
def Densities.coherence (d : Densities) : Float32 :=
  let denom := d.xx * d.yy
  if denom > 0 then
    let ratio := (d.xyRe * d.xyRe + d.xyIm * d.xyIm) / denom
    singleOfDouble (if ratio < 1 then ratio else 1)
  else 0

/-- The coherence of two signals of equal length holding at least one segment. -/
def analyze (fft : Fft) (an : CoherenceAnalyzer) (x y : Array Float32) :
    Except AnalysisError Coherence :=
  if x.size ≠ y.size then .error (.lengthMismatch x.size y.size)
  else
    let segments := an.numSegments x.size
    if segments = 0 then .error (.signalTooShort x.size an.segmentLen)
    else
      let n := an.segmentLen
      let taps := an.window.coefficients n
      let bins := n / 2 + 1
      let sums := (List.range segments).foldl (fun (acc : Array Densities) s =>
        let start := s * an.hop
        let sx := segmentSpectrum fft taps (x.extract start (start + n))
        let sy := segmentSpectrum fft taps (y.extract start (start + n))
        acc.mapIdx fun i d => d.add (entry sx i) (entry sy i))
        (Array.replicate bins {})
      .ok { frequencies := binFrequencies bins an.sampleRate
            values := sums.map Densities.coherence
            segments }

end CoherenceAnalyzer

end VoiceBench.Analysis
