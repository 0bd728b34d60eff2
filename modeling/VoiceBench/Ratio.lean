/-!
# Quotients of natural numbers

Integer rules on a ratio `num / den` of natural numbers that the number formats share:
rounding to the nearest integer with ties to the even one, and the integer parts of the
binary and decimal logarithms. All arithmetic is exact, so the laws of these functions are
facts about `Nat`.
-/

namespace VoiceBench

/-- `num / den` rounded to the nearest natural number, an exact half going to the even
neighbour. -/
def roundHalfEven (num den : Nat) : Nat :=
  let q := num / den
  let r := num % den
  if 2 * r > den then q + 1
  else if 2 * r < den then q
  else if q % 2 == 0 then q
  else q + 1

/-- `num / den` as a multiple of `2 ^ e`: the nearest multiple, an exact half going to the even
one. Returns the multiplier. -/
def roundAt (num den : Nat) (e : Int) : Nat :=
  if 0 ≤ e then roundHalfEven num (den * Nat.pow 2 e.toNat)
  else roundHalfEven (num * Nat.pow 2 (-e).toNat) den

/-- Number of decimal digits of `n`, with `decimalLength 0 = 1`. -/
def decimalLength (n : Nat) : Nat :=
  (Nat.toDigits 10 n).length

/-- `num * 2 ^ k` for an integer `k`, as the pair `(numerator, denominator)`. -/
def scaleByTwo (num : Nat) (k : Int) : Nat × Nat :=
  if 0 ≤ k then (num * Nat.pow 2 k.toNat, 1) else (num, Nat.pow 2 (-k).toNat)

/-- `num * 10 ^ k` for an integer `k`, as the pair `(numerator, denominator)`. -/
def scaleByTen (num : Nat) (k : Int) : Nat × Nat :=
  if 0 ≤ k then (num * Nat.pow 10 k.toNat, 1) else (num, Nat.pow 10 (-k).toNat)

/-- `⌊log₂ (num / den)⌋` for positive `num` and `den`. The bit lengths fix it up to one,
and one comparison decides. -/
def floorLog2Ratio (num den : Nat) : Int :=
  let k : Int := (num.log2 : Int) - den.log2
  if 0 ≤ k then
    if den * Nat.pow 2 k.toNat ≤ num then k else k - 1
  else
    if den ≤ num * Nat.pow 2 (-k).toNat then k else k - 1

/-- `⌊log₁₀ (num / den)⌋` for positive `num` and `den`. The digit counts fix it up to one,
and one comparison decides. -/
def floorLog10Ratio (num den : Nat) : Int :=
  let k : Int := (decimalLength num : Int) - decimalLength den
  if 0 ≤ k then
    if den * Nat.pow 10 k.toNat ≤ num then k else k - 1
  else
    if den ≤ num * Nat.pow 10 (-k).toNat then k else k - 1

end VoiceBench
