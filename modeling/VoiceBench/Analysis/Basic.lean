import VoiceBench.Binary.Fused

/-!
# Sums and conversions of the analyses

Signals are arrays of singles. A sum of singles adds left to right, one rounding per
addition, starting from negative zero, the identity of floating-point addition: a sum of
negative zeros stays negative zero, and any other addend makes the sign that of the sum.
A sum of doubles starts from negative zero likewise. A single converts to a count by
truncation toward zero, a NaN or a negative value giving zero.
-/

namespace VoiceBench.Analysis

/-- The sum of singles from left to right, starting from negative zero. -/
def sumSingles (xs : List Float32) : Float32 := xs.foldl (· + ·) (-0)

/-- The sum of doubles from left to right, starting from negative zero. -/
def sumDoubles (xs : List Float) : Float := xs.foldl (· + ·) (-0)

/-- A single truncated toward zero to a count, zero for a NaN or a negative value. -/
def countOfSingle (x : Float32) : Nat := x.toUInt64.toNat

/-- The larger of two singles, the other one when one of them is a NaN. -/
def maxSingle (a b : Float32) : Float32 :=
  if a.isNaN then b else if b.isNaN then a else if a < b then b else a

/-- The smaller of two singles, the other one when one of them is a NaN. -/
def minSingle (a b : Float32) : Float32 :=
  if a.isNaN then b else if b.isNaN then a else if b < a then b else a

end VoiceBench.Analysis
