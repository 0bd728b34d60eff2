import VoiceBench.Binary.Format
import VoiceBench.Decimal.Basic

/-!
# Reading number text

The grammar of a floating-point literal as the tools accept it: an optional sign, then
either one of the words `inf`, `infinity`, `nan` in any ASCII case, or decimal digits with
an optional point and an optional exponent, at least one digit before or after the point:

```
[+|-] ( inf | infinity | nan | D* [. D*] [(e|E) [+|-] D+] )
```

No blank, underscore or other character is allowed anywhere. `Format.readText` rounds what
the text denotes to the nearest value of a format.
-/

namespace VoiceBench

/-- What a number text denotes before it is rounded to a format. -/
inductive Literal where
  | nan (neg : Bool)
  | infinite (neg : Bool)
  | finite (neg : Bool) (value : Decimal)
  deriving Repr, DecidableEq

namespace Literal

/-- The value of a run of ASCII digits. -/
def digitsValue (ds : List Char) : Nat :=
  ds.foldl (fun acc c => 10 * acc + (c.toNat - '0'.toNat)) 0

/-- Splits an optional leading sign off, reporting whether it was `-`. -/
def splitSign : List Char → Bool × List Char
  | '-' :: rest => (true, rest)
  | '+' :: rest => (false, rest)
  | cs => (false, cs)

/-- The exponent part after the mantissa: empty, or `e`/`E`, an optional sign and at least
one digit, with nothing after. -/
def readExponent : List Char → Option Int
  | [] => some 0
  | c :: rest =>
    if c = 'e' ∨ c = 'E' then
      let (neg, ds) := splitSign rest
      if ds ≠ [] ∧ ds.all Char.isDigit then
        let v : Int := digitsValue ds
        some (if neg then -v else v)
      else none
    else none

/-- Digits, an optional point and more digits, then the exponent part. -/
def readDecimal (cs : List Char) : Option Decimal :=
  let whole := cs.takeWhile Char.isDigit
  let rest := cs.dropWhile Char.isDigit
  let (frac, rest) := match rest with
    | '.' :: more => (more.takeWhile Char.isDigit, more.dropWhile Char.isDigit)
    | _ => ([], rest)
  if whole.isEmpty ∧ frac.isEmpty then none
  else
    (readExponent rest).map fun exp =>
      ⟨digitsValue (whole ++ frac), exp - frac.length⟩

/-- Reads a whole text as a floating-point literal. -/
def read (s : String) : Option Literal :=
  let (neg, body) := splitSign s.toList
  let word := String.ofList (body.map Char.toLower)
  if word = "inf" ∨ word = "infinity" then some (.infinite neg)
  else if word = "nan" then some (.nan neg)
  else (readDecimal body).map (.finite neg)

end Literal

namespace Binary.Format

/-- Encoding in format `f` of what a literal denotes, rounded to nearest with ties to
even; a NaN literal gives the quiet NaN of its sign. -/
def ofLiteral (f : Format) : Literal → Nat
  | .nan neg => f.quietNaN neg
  | .infinite neg => f.infinity neg
  | .finite neg d => f.roundDecimal neg d.coefficient d.exponent

/-- Reads a text as a value of format `f`, or `none` if it is no literal. -/
def readText (f : Format) (s : String) : Option Nat :=
  (Literal.read s).map f.ofLiteral

end Binary.Format

end VoiceBench
