/-!
# Little-endian words and hexadecimal text

Every multi-byte quantity the tools exchange (parameter values, dump samples, WAV fields,
transfer block numbers) is little-endian. `toLE w n` writes the low `w` bytes of `n`, least
significant first; `ofLE` reads them back. `hex` is the lowercase two-digit-per-byte text.
-/

namespace VoiceBench.Bytes

/-- The low `width` bytes of `n`, least significant first. -/
def toLE : Nat → Nat → List UInt8
  | 0, _ => []
  | width + 1, n => UInt8.ofNat (n % 256) :: toLE width (n / 256)

/-- The number whose little-endian bytes are given. -/
def ofLE : List UInt8 → Nat
  | [] => 0
  | b :: rest => b.toNat + 256 * ofLE rest

@[simp] theorem toLE_length (width n : Nat) : (toLE width n).length = width := by
  induction width generalizing n with
  | zero => rfl
  | succ w ih => simp [toLE, ih]

/-- Splits a list into consecutive chunks of `size` elements, the last one possibly
shorter; `size = 0` gives one chunk with everything. -/
def chunks {α : Type} (size : Nat) (xs : List α) : List (List α) :=
  if size = 0 then (if xs.isEmpty then [] else [xs])
  else go xs xs.length
where
  /-- `fuel` bounds the number of chunks still to cut. -/
  go (rest : List α) : Nat → List (List α)
    | 0 => []
    | fuel + 1 => if rest.isEmpty then [] else rest.take size :: go (rest.drop size) fuel

/-- The two lowercase hexadecimal digits of a byte. -/
def hexByte (b : UInt8) : String :=
  let digit (n : Nat) : Char := if n < 10 then Char.ofNat (48 + n) else Char.ofNat (87 + n)
  String.ofList [digit (b.toNat / 16), digit (b.toNat % 16)]

/-- Lowercase hexadecimal text of a byte string, two digits per byte. -/
def hex (bytes : List UInt8) : String :=
  String.join (bytes.map hexByte)

/-- The value of one hexadecimal digit of either case. -/
def hexDigit? (c : Char) : Option Nat :=
  if '0' ≤ c ∧ c ≤ '9' then some (c.toNat - '0'.toNat)
  else if 'a' ≤ c ∧ c ≤ 'f' then some (c.toNat - 'a'.toNat + 10)
  else if 'A' ≤ c ∧ c ≤ 'F' then some (c.toNat - 'A'.toNat + 10)
  else none

/-- Reads hexadecimal text, two digits per byte. -/
def ofHex? (s : String) : Option (List UInt8) :=
  let rec go : List Char → Option (List UInt8)
    | [] => some []
    | a :: b :: rest => do
      let hi ← hexDigit? a
      let lo ← hexDigit? b
      let tail ← go rest
      pure (UInt8.ofNat (16 * hi + lo) :: tail)
    | [_] => none
  go s.toList

end VoiceBench.Bytes
