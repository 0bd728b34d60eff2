import VoiceBench.Spectrum.Complex32

/-!
# Libraries of Fourier transforms

The analyses take discrete Fourier transforms of single-precision buffers from a library:
`Fft.transform dir xs` is `X k = Σ j, x j * exp(∓2πi j k / n)` of the buffer, without scaling,
computed in place. Which round-off a transform carries is the library's choice; the analyses
read its output only through `entry`, zero past the end, so nothing they are proved to do
depends on it. Over a library, `inverseScaled` scales the inverse transform by `1 / n` and
`forwardReal` keeps the first `n / 2 + 1` bins of the transform of `n` real samples.
-/

namespace VoiceBench.Spectrum

open Binary

/-- The sign of the exponent: the forward transform turns clockwise. -/
inductive Direction where
  | forward
  | inverse
  deriving DecidableEq, Repr

/-- A library of unscaled discrete Fourier transforms of single-precision buffers. -/
structure Fft where
  transform : Direction → Array Complex32 → Array Complex32

/-- The entry at an index, zero past the end. -/
def entry (xs : Array Complex32) (i : Nat) : Complex32 := xs.getD i .zero

namespace Fft

/-- The inverse transform scaled by `1 / n`, the scale rounded to a single first. -/
def inverseScaled (fft : Fft) (xs : Array Complex32) : Array Complex32 :=
  let s : Float32 := 1 / singleOfNat xs.size
  (fft.transform .inverse xs).map (·.scale s)

/-- The first `n / 2 + 1` bins of the transform of `n` real samples: the input is padded
with zeros or cut to `n` samples. -/
def forwardReal (fft : Fft) (n : Nat) (input : Array Float32) : Array Complex32 :=
  let buffer := (Array.range n).map fun i => Complex32.ofReal (input.getD i 0)
  (fft.transform .forward buffer).extract 0 (n / 2 + 1)

end Fft

end VoiceBench.Spectrum
