import VoiceBench.Binary.Format

/-!
# Single-precision operations with one rounding

Operations on singles whose exact result is rounded once, to nearest with ties to the even
significand: conversions from integers, decimals and doubles, truncation to an integer, and the
fused multiply-add.

`fusedMulAdd a b c` is `a * b + c` with one rounding: the product and the sum are formed
exactly and only the result is rounded to single precision, to nearest with ties to the
even significand. Vector units form complex products with this operation, so a product
computed there differs in its last bit from the same product formed with two roundings.

For finite operands the exact sum is an integer multiple of the smaller of the two
quanta, and `Format.roundRatio` rounds it; an exact zero is negative only when both terms
are zeros of negative sign. A NaN or an infinite operand gives what the two-step operation
gives, except that a finite product never overflows before an infinite addend is met.
-/

namespace VoiceBench.Binary

/-- The single-precision encoding as a value. -/
def singleOfBits (bits : Nat) : Float32 := Float32.ofBits (UInt32.ofNat bits)

/-- The finite value `(-1) ^ neg * m * 2 ^ e` as a multiple of `2 ^ base`, for `base ≤ e`. -/
def multipleOf (neg : Bool) (m : Nat) (e base : Int) : Int :=
  let v : Int := (m * Nat.pow 2 (e - base).toNat : Nat)
  if neg then -v else v

/-- `a * b + c` rounded once to single precision. -/
def fusedMulAdd (a b c : Float32) : Float32 :=
  let f := Format.single
  match f.unpack a.toBits.toNat, f.unpack b.toBits.toNat, f.unpack c.toBits.toNat with
  | .finite na ma ea, .finite nb mb eb, .finite nc mc ec =>
    let pe := ea + eb
    let base := min pe ec
    let s := multipleOf (na != nb) (ma * mb) pe base + multipleOf nc mc ec base
    if s = 0 then
      singleOfBits (f.signPart (ma * mb == 0 && mc == 0 && (na != nb) && nc))
    else
      let (num, den) := scaleByTwo s.natAbs base
      singleOfBits (f.roundRatio (decide (s < 0)) num den)
  | .finite .., .finite .., _ => c
  | _, _, _ => a * b + c

/-- The single nearest to a double; a NaN becomes the quiet NaN of its sign. -/
def singleOfDouble (x : Float) : Float32 :=
  singleOfBits (Format.double.convert Format.single x.toBits.toNat)

/-- The single nearest to a natural number. -/
def singleOfNat (n : Nat) : Float32 := singleOfBits (Format.single.roundRatio false n 1)

/-- The single nearest to an integer. -/
def singleOfInt (v : Int) : Float32 :=
  singleOfBits (Format.single.roundRatio (decide (v < 0)) v.natAbs 1)

/-- A single converted to an integer type with range `[lo, hi]`: truncated toward zero, then
clamped to the range, the infinities to its ends; a NaN gives zero. -/
def castSingle (lo hi : Int) (x : Float32) : Int :=
  match Format.single.unpack x.toBits.toNat with
  | .finite neg m e =>
    let mag := if 0 ≤ e then m * Nat.pow 2 e.toNat else m / Nat.pow 2 (-e).toNat
    max lo (min hi (if neg then -(mag : Int) else mag))
  | .infinite neg => if neg then lo else hi
  | .nan => 0

/-- The single nearest to `coefficient * 10 ^ exponent`. -/
def singleOfDecimal (coefficient : Nat) (exponent : Int) : Float32 :=
  singleOfBits (Format.single.roundDecimal false coefficient exponent)

end VoiceBench.Binary
