import VoiceBench.Binary.Fused

/-!
# Analysis windows

A window tapers a segment before it is transformed. The rectangular window leaves it as it
is; the periodic Hann window of `n` taps is `0.5 * (1 - cos(2π i / n))`, computed in single
precision: the angle is `2π` times `i`, divided by `n`, each step rounded, and its cosine is
rounded once to a single. Being periodic, its first tap is zero and its last is not.
-/

namespace VoiceBench.Spectrum

open Binary

/-- π in single precision. -/
def piSingle : Float32 := Float32.ofBits 0x40490FDB

/-- The cosine of a single, formed in double precision and rounded once. -/
def cosSingle (x : Float32) : Float32 := x.toFloat.cos.toFloat32

/-- An analysis window. -/
inductive Window where
  | rectangular
  | hann
  deriving DecidableEq, Repr

namespace Window

/-- The window of `size` taps. -/
def coefficients : Window → Nat → Array Float32
  | rectangular, size => Array.replicate size 1
  | hann, size =>
    (Array.range size).map fun i =>
      0.5 * (1 - cosSingle (2 * piSingle * singleOfNat i / singleOfNat size))

/-- A buffer multiplied tap by tap by the window of its own length. -/
def apply (w : Window) (buffer : Array Float32) : Array Float32 :=
  match w with
  | rectangular => buffer
  | hann => Array.zipWith (· * ·) buffer (hann.coefficients buffer.size)

end Window

end VoiceBench.Spectrum
