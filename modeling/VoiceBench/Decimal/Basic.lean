/-!
# Finite decimals and their layouts

A `Decimal` is `coefficient * 10 ^ exponent`. The layouts here write one without a sign:
`toPositional` spells every digit out (`0.00001`, `100000`), `withPlaces` writes an integer
count of `10 ^ -places` units with that many digits after the point.
-/

namespace VoiceBench

/-- The finite decimal `coefficient * 10 ^ exponent`. -/
structure Decimal where
  coefficient : Nat
  exponent : Int
  deriving Repr, DecidableEq, Inhabited

namespace Decimal

/-- `n` zeros. -/
def zeros (n : Nat) : String := String.ofList (List.replicate n '0')

/-- The same number with the trailing zeros of the coefficient moved into the exponent. -/
def normalize (d : Decimal) : Decimal :=
  go d.coefficient.log2 d
where
  /-- One step per removed zero; a coefficient has fewer trailing zeros than bits. -/
  go : Nat → Decimal → Decimal
    | 0, d => d
    | fuel + 1, d =>
      if d.coefficient ≠ 0 ∧ d.coefficient % 10 = 0 then
        go fuel ⟨d.coefficient / 10, d.exponent + 1⟩
      else d

/-- Every digit written out, with a point only when the number has a fractional part and
`0.` before a number below one: `5e-1` is `0.5`, `1e5` is `100000`. -/
def toPositional (d : Decimal) : String :=
  let d := d.normalize
  let digits := toString d.coefficient
  if d.coefficient = 0 then "0"
  else if 0 ≤ d.exponent then digits ++ zeros d.exponent.toNat
  else
    let frac := (-d.exponent).toNat
    let len := digits.length
    if frac < len then
      String.ofList (digits.toList.take (len - frac)) ++ "." ++
        String.ofList (digits.toList.drop (len - frac))
    else
      "0." ++ zeros (frac - len) ++ digits

/-- A count of `10 ^ -places` units written with exactly `places` digits after the point
(and no point when `places = 0`): `withPlaces 5 2` is `0.05`. -/
def withPlaces (units : Nat) (places : Nat) : String :=
  let digits := toString units
  let digits := zeros (places + 1 - digits.length) ++ digits
  if places = 0 then digits
  else
    let len := digits.length
    String.ofList (digits.toList.take (len - places)) ++ "." ++
      String.ofList (digits.toList.drop (len - places))

end Decimal

end VoiceBench
