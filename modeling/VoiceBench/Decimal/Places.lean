import VoiceBench.Ratio

/-!
# Decimals rounded to a given number of digits

Two roundings of a finite value `m * 2 ^ e`, both on its exact binary value and both with
ties to the even neighbour: to a fixed number of places after the point (`fixedUnits`) and
to a fixed number of significant digits (`significant`).
-/

namespace VoiceBench.Decimal

/-- `m * 2 ^ e * 10 ^ places` rounded to the nearest natural number, ties to even: the value
counted in units of `10 ^ -places`. -/
def fixedUnits (m : Nat) (e : Int) (places : Nat) : Nat :=
  let (a, b) := scaleByTwo (m * Nat.pow 10 places) e
  roundHalfEven a b

/-- `m * 2 ^ e` rounded to `places + 1` significant digits, ties to even, as a coefficient of
exactly `places + 1` digits and the decimal exponent of its first digit; zero gives `(0, 0)`. -/
def significant (m : Nat) (e : Int) (places : Nat) : Nat × Int :=
  if m = 0 then (0, 0)
  else
    let (a, b) := scaleByTwo m e
    let k := floorLog10Ratio a b
    let (sa, sb) := scaleByTen 1 ((places : Int) - k)
    let q := roundHalfEven (a * sa) (b * sb)
    if q = Nat.pow 10 (places + 1) then (q / 10, k + 1) else (q, k)

end VoiceBench.Decimal
