import VoiceBench.Spectrum.Complex32

/-!
# Bin frequencies and magnitudes

The frequencies of the bins of a one-sided spectrum are evenly spaced from zero to half the
sample rate: bin `i` of `bins` lies at `i * (rate / 2 / (bins - 1))`, in single precision.
A magnitude in decibels is `20 * log₁₀(|X| + floor)`; the floor keeps an empty bin finite.
-/

namespace VoiceBench.Spectrum

open Binary

/-- The decimal logarithm of a single, formed in double precision and rounded once. -/
def log10Single (x : Float32) : Float32 := x.toFloat.log10.toFloat32

/-- The frequencies of `bins` bins spanning zero to half of `rate`. -/
def binFrequencies (bins : Nat) (rate : Float32) : Array Float32 :=
  match bins with
  | 0 => #[]
  | 1 => #[0]
  | n + 2 =>
    let step := rate / 2 / singleOfNat (n + 1)
    (Array.range (n + 2)).map fun i => singleOfNat i * step

/-- The magnitude of every bin in decibels above a floor. -/
def magnitudeDb (spectrum : Array Complex32) (floor : Float32) : Array Float32 :=
  spectrum.map fun c => 20 * log10Single (c.norm + floor)

end VoiceBench.Spectrum
