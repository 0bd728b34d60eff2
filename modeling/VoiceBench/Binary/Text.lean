import VoiceBench.Decimal.Shortest
import VoiceBench.Decimal.Places

/-!
# Text of binary floating-point values

The three layouts in which the tools print a binary value. All share the spellings `NaN`,
`inf` and `-inf` and put a `-` before every value whose sign bit is set, negative zero
included.

* `plainText`: the shortest decimal that reads back, every digit spelled out, no exponent
  and no point for an integral value (`0.1`, `100000`, `-0`).
* `placesText`: the exact value rounded to a number of places, ties to even (`-6.02`).
* `expText`: the exact value rounded to a number of digits after the first, ties to even,
  and a decimal exponent with no `+` and no padding (`1.000000e0`, `-9.875000e-10`).
-/

namespace VoiceBench.Binary.Format

/-- Text of a non-finite value, or `none` for a finite one. -/
def specialText (f : Format) (bits : Nat) : Option String :=
  match f.unpack bits with
  | .nan => some "NaN"
  | .infinite neg => some (if neg then "-inf" else "inf")
  | .finite .. => none

/-- The sign prefix of a finite value. -/
def signText (neg : Bool) : String := if neg then "-" else ""

/-- The shortest decimal that reads back, written positionally. -/
def plainText (f : Format) (bits : Nat) : String :=
  match f.unpack bits with
  | .finite neg m e => signText neg ++ (f.shortest m e).toPositional
  | _ => (f.specialText bits).getD ""

/-- The exact value rounded to `places` digits after the point, ties to even. -/
def placesText (f : Format) (bits : Nat) (places : Nat) : String :=
  match f.unpack bits with
  | .finite neg m e => signText neg ++ Decimal.withPlaces (Decimal.fixedUnits m e places) places
  | _ => (f.specialText bits).getD ""

/-- The exact value rounded to `places + 1` significant digits, ties to even, with the
exponent of its first digit after an `e`. -/
def expText (f : Format) (bits : Nat) (places : Nat) : String :=
  match f.unpack bits with
  | .finite neg m e =>
    let (q, k) := Decimal.significant m e places
    signText neg ++ Decimal.withPlaces q places ++ "e" ++ toString k
  | _ => (f.specialText bits).getD ""

end Format

end VoiceBench.Binary

namespace VoiceBench

/-- Default text of a single-precision value (`plainText`). -/
def singleText (x : Float32) : String := Binary.Format.single.plainText x.toBits.toNat

/-- Default text of a double-precision value (`plainText`). -/
def doubleText (x : Float) : String := Binary.Format.double.plainText x.toBits.toNat

/-- A single-precision value with `places` digits after the point. -/
def singlePlaces (x : Float32) (places : Nat) : String :=
  Binary.Format.single.placesText x.toBits.toNat places

/-- A double-precision value with `places` digits after the point. -/
def doublePlaces (x : Float) (places : Nat) : String :=
  Binary.Format.double.placesText x.toBits.toNat places

/-- A single-precision value in exponent form with `places` digits after the point. -/
def singleExp (x : Float32) (places : Nat) : String :=
  Binary.Format.single.expText x.toBits.toNat places

end VoiceBench
