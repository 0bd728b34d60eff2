import VoiceBench.Binary.Fused

/-!
# Complex numbers of single precision

The values a spectral transform works on: a real and an imaginary part, each a single.
Sums, differences and products round each real operation on its own, in the order
`re = a.re * b.re - a.im * b.im`, `im = a.re * b.im + a.im * b.re`; `fusedMul` forms the same
product with the first term of each part fused into one rounding, as vector units do.
Rotations by a quarter turn and conjugation only move and negate parts, so they are exact.
-/

namespace VoiceBench.Spectrum

open Binary

/-- A complex number with single-precision parts. -/
structure Complex32 where
  re : Float32
  im : Float32
  deriving Inhabited

namespace Complex32

/-- The complex zero with positive parts. -/
def zero : Complex32 := ⟨0, 0⟩

/-- A real number as a complex number with imaginary part zero. -/
def ofReal (x : Float32) : Complex32 := ⟨x, 0⟩

instance : Add Complex32 := ⟨fun a b => ⟨a.re + b.re, a.im + b.im⟩⟩
instance : Sub Complex32 := ⟨fun a b => ⟨a.re - b.re, a.im - b.im⟩⟩
instance : Mul Complex32 :=
  ⟨fun a b => ⟨a.re * b.re - a.im * b.im, a.re * b.im + a.im * b.re⟩⟩

/-- Both parts multiplied by a real factor. -/
def scale (a : Complex32) (s : Float32) : Complex32 := ⟨a.re * s, a.im * s⟩

/-- The complex conjugate. -/
def conj (a : Complex32) : Complex32 := ⟨a.re, -a.im⟩

/-- Multiplication by `-i` (`clockwise`) or by `i`. -/
def rotate (clockwise : Bool) (a : Complex32) : Complex32 :=
  if clockwise then ⟨a.im, -a.re⟩ else ⟨-a.im, a.re⟩

/-- The product `a * b` with each part's first term fused into the final rounding. -/
def fusedMul (a b : Complex32) : Complex32 :=
  ⟨fusedMulAdd a.re b.re (-(a.im * b.im)), fusedMulAdd a.re b.im (a.im * b.re)⟩

/-- The modulus `√(re² + im²)`, formed in double precision and rounded once; an infinite
part makes it infinite even beside a NaN. -/
def norm (a : Complex32) : Float32 :=
  if a.re.isInf || a.im.isInf then Float32.ofBits 0x7F800000
  else
    let x := a.re.toFloat
    let y := a.im.toFloat
    (Float.sqrt (x * x + y * y)).toFloat32

/-- The parts in double precision. -/
def toDoubles (a : Complex32) : Float × Float := (a.re.toFloat, a.im.toFloat)

end Complex32

end VoiceBench.Spectrum
