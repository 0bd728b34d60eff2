import VoiceBench.Ratio

/-!
# Binary interchange formats

The two IEEE 754 binary formats the tools exchange: single precision, the wire format of
parameters, dumps and signals, and double precision, the format of value ranges and of
intermediate sums. A format is a record of its precision and exponent width.

`Format.unpack` reads an encoding as a NaN, a signed infinity or a finite value
`significand * 2 ^ exponent`; `Format.roundRatio` writes the encoding of the value nearest to
a ratio of naturals, a tie going to the even significand. Every conversion of the library
(decimal text to binary, double to single) is one call of `roundRatio`.
-/

namespace VoiceBench.Binary

/-- An IEEE 754 binary format with `precision` significand bits, the hidden bit included,
and `exponentBits` bits of biased exponent. -/
structure Format where
  precision : Nat
  exponentBits : Nat
  deriving Repr, DecidableEq

/-- What an encoding denotes: a NaN, a signed infinity, or the finite value
`(-1) ^ neg * significand * 2 ^ exponent`. -/
inductive Unpacked where
  | nan
  | infinite (neg : Bool)
  | finite (neg : Bool) (significand : Nat) (exponent : Int)
  deriving Repr, DecidableEq

namespace Format

/-- Single precision: 24 significand bits, 8 exponent bits. -/
def single : Format := ⟨24, 8⟩

/-- Double precision: 53 significand bits, 11 exponent bits. -/
def double : Format := ⟨53, 11⟩

/-- Stored fraction bits: the precision without the hidden bit. -/
def fractionBits (f : Format) : Nat := f.precision - 1

/-- The exponent bias, which is also the largest exponent of a finite value. -/
def bias (f : Format) : Nat := Nat.pow 2 (f.exponentBits - 1) - 1

/-- The biased exponent field that marks infinities and NaNs. -/
def maxField (f : Format) : Nat := Nat.pow 2 f.exponentBits - 1

/-- Weight of the sign bit. -/
def signBit (f : Format) : Nat := Nat.pow 2 (f.fractionBits + f.exponentBits)

/-- Exponent of the last significand bit of every subnormal number and of the smallest
normal ones. -/
def minQuantum (f : Format) : Int := 1 - (f.bias : Int) - f.fractionBits

/-- Reads an encoding given as a natural number below `2 ^ (precision + exponentBits)`. -/
def unpack (f : Format) (bits : Nat) : Unpacked :=
  let fraction := bits % Nat.pow 2 f.fractionBits
  let field := (bits / Nat.pow 2 f.fractionBits) % Nat.pow 2 f.exponentBits
  let neg := bits / f.signBit % 2 == 1
  if field == f.maxField then
    if fraction == 0 then .infinite neg else .nan
  else if field == 0 then
    .finite neg fraction f.minQuantum
  else
    .finite neg (fraction + Nat.pow 2 f.fractionBits) (f.minQuantum + ((field - 1 : Nat) : Int))

/-- The sign part of an encoding. -/
def signPart (f : Format) (neg : Bool) : Nat := if neg then f.signBit else 0

/-- Encoding of the infinity of the given sign. -/
def infinity (f : Format) (neg : Bool) : Nat :=
  f.signPart neg + f.maxField * Nat.pow 2 f.fractionBits

/-- Encoding of the quiet NaN of the given sign with no payload beyond the quiet bit. -/
def quietNaN (f : Format) (neg : Bool) : Nat :=
  f.infinity neg + Nat.pow 2 (f.fractionBits - 1)

/-- The exponent of the last significand bit of the values near `num / den`: the quotient has
`precision` bits at it, fewer below the normal range. -/
def quantum (f : Format) (num den : Nat) : Int :=
  max (floorLog2Ratio num den - f.fractionBits) f.minQuantum

/-- Encoding of the value nearest to `num / den`, negated when `neg`: the quotient is rounded
to a multiple of `2 ^ quantum` with ties to the even significand, and a result past the largest
finite value is an infinity. A zero ratio is a zero of the given sign. -/
def roundRatio (f : Format) (neg : Bool) (num den : Nat) : Nat :=
  let sign := f.signPart neg
  if num = 0 ∨ den = 0 then sign
  else
    let e := f.quantum num den
    let q := roundAt num den e
    let carry := q == Nat.pow 2 f.precision
    let q := if carry then q / 2 else q
    let e := if carry then e + 1 else e
    if e + f.fractionBits > f.bias then f.infinity neg
    else if q < Nat.pow 2 f.fractionBits then sign + q
    else sign + ((e - f.minQuantum).toNat + 1) * Nat.pow 2 f.fractionBits + (q - Nat.pow 2 f.fractionBits)

/-- Encoding of the value nearest to `coefficient * 10 ^ exponent`, negated when `neg`.
Values whose decimal magnitude lies far outside the format are an infinity or a zero at
once, so no power of ten beyond the format's range is ever formed. -/
def roundDecimal (f : Format) (neg : Bool) (coefficient : Nat) (exponent : Int) : Nat :=
  if coefficient = 0 then f.signPart neg
  else
    let magnitude : Int := (decimalLength coefficient : Int) + exponent
    if 3 * (magnitude - 1) > (f.bias : Int) + 1 then f.infinity neg
    else if 3 * magnitude < f.minQuantum - 1 then f.signPart neg
    else
      let (num, den) := scaleByTen coefficient exponent
      f.roundRatio neg num den

/-- Re-encodes a value of format `src` in format `dst`, rounding to nearest with ties to
even. A NaN becomes the quiet NaN of its sign. -/
def convert (src dst : Format) (bits : Nat) : Nat :=
  match src.unpack bits with
  | .nan => dst.quietNaN (bits / src.signBit % 2 == 1)
  | .infinite neg => dst.infinity neg
  | .finite neg m e =>
    let (num, den) := scaleByTwo m e
    dst.roundRatio neg num den

end Format

end VoiceBench.Binary
