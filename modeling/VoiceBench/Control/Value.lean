import VoiceBench.Bytes
import VoiceBench.Binary.Text
import VoiceBench.Decimal.Read
import VoiceBench.Text.Blank
import VoiceBench.Control.Error

/-!
# Parameter values

A value of one of the element types, with its little-endian wire form (`Value.toBytes`,
`Value.ofBytes?`), its text (`Value.text`) and the rule that reads it from a command-line
argument (`ValueType.parse`).

Reading trims blanks first. An integer is an optional sign, an optional `0x`/`0X` and digits
of that radix; a well-formed literal outside the type's range is `outOfTypeRange` however many
digits it has, and so is a text whose leading digits pass the largest 128-bit integer, whatever
follows them. Anything else is `invalidValue`. A float is read by the literal grammar of
`Literal.read` and rounded to single precision; a result that overflows to an infinity is
`outOfTypeRange` unless the text itself spells an infinity.

Floats are held as their single-precision encoding, so the wire form round-trips bit for bit.
-/

namespace VoiceBench.Control

/-- A parameter value. Floats are held as their single-precision encoding. -/
inductive Value where
  | char (byte : UInt8)
  | uint8 (byte : UInt8)
  | int32 (v : Int32)
  | uint32 (v : UInt32)
  | float (bits : UInt32)
  | radians (bits : UInt32)
  deriving Repr, DecidableEq, Inhabited

namespace Value

/-- The element type of a value. -/
def type : Value → ValueType
  | char _ => .char
  | uint8 _ => .uint8
  | int32 _ => .int32
  | uint32 _ => .uint32
  | float _ => .float
  | radians _ => .radians

/-- The little-endian wire form. -/
def toBytes : Value → List UInt8
  | char b | uint8 b => [b]
  | int32 v => Bytes.toLE 4 v.toUInt32.toNat
  | uint32 v => Bytes.toLE 4 v.toNat
  | float bits | radians bits => Bytes.toLE 4 bits.toNat

/-- The value of a type whose wire form is the given bytes, if they are as many as the
type's size. -/
def ofBytes? (t : ValueType) (bytes : List UInt8) : Option Value :=
  if bytes.length ≠ t.size then none
  else
    let word := UInt32.ofNat (Bytes.ofLE bytes)
    match t, bytes with
    | .char, b :: _ => some (char b)
    | .uint8, b :: _ => some (uint8 b)
    | .int32, _ => some (int32 word.toInt32)
    | .uint32, _ => some (uint32 word)
    | .float, _ => some (float word)
    | .radians, _ => some (radians word)
    | _, _ => none

/-- The value as a double, exactly. -/
def toDouble : Value → Float
  | char b | uint8 b => Float.ofNat b.toNat
  | int32 v => Float.ofInt v.toInt
  | uint32 v => Float.ofNat v.toNat
  | float bits | radians bits => (Float32.ofBits bits).toFloat

/-- Degrees per radian in single precision. -/
def degreesPerRadian : Float32 := Float32.ofBits 0x42652EE1

/-- The text of a value: a byte of a text command as the character of that code point,
integers in decimal, floats as their shortest decimal, and an angle followed by its degrees
with two places. -/
def text : Value → String
  | char b => String.singleton (Char.ofNat b.toNat)
  | uint8 b => toString b.toNat
  | int32 v => toString v.toInt
  | uint32 v => toString v.toNat
  | float bits => singleText (Float32.ofBits bits)
  | radians bits =>
    let x := Float32.ofBits bits
    s!"{singleText x} ({singlePlaces (x * degreesPerRadian) 2} deg)"

end Value

/-- Splits an optional leading `-` (else an optional `+`) off a text. -/
def splitIntegerSign (s : List Char) : Bool × List Char :=
  match s with
  | '-' :: rest => (true, rest)
  | '+' :: rest => (false, rest)
  | _ => (false, s)

/-- Splits a `0x` or `0X` prefix off, which selects radix 16; without one the radix is 10. -/
def splitRadix (s : List Char) : Nat × List Char :=
  match s with
  | '0' :: 'x' :: more => (16, more)
  | '0' :: 'X' :: more => (16, more)
  | _ => (10, s)

/-- The value of a digit in radix 10 or 16. -/
def radixDigit? (radix : Nat) (c : Char) : Option Nat :=
  match Bytes.hexDigit? c with
  | some d => if d < radix then some d else none
  | none => none

/-- Why a text is not read as an integer: it is no integer literal, or its digits pass the
largest 128-bit signed integer before a character that is no digit is reached. -/
inductive IntegerError where
  | invalid
  | overflow
  deriving Repr, DecidableEq

/-- The largest 128-bit signed integer, the bound of an integer read from text. -/
def intMax : Nat := Nat.pow 2 127 - 1

/-- Reads digits of a radix left to right onto an accumulated value. A character that is no
digit is refused where it stands, and a value past `intMax` is refused at the digit that passes
it, before any later character is looked at. -/
def readDigits (radix acc : Nat) : List Char → Except IntegerError Nat
  | [] => .ok acc
  | c :: rest =>
    match radixDigit? radix c with
    | none => .error .invalid
    | some d =>
      if intMax < radix * acc + d then .error .overflow
      else readDigits radix (radix * acc + d) rest

/-- Reads an integer literal: an optional sign, an optional `0x` or `0X`, then at least one
digit of the radix and nothing else. -/
def readInteger (s : String) : Except IntegerError Int :=
  let (neg, rest) := splitIntegerSign s.toList
  let (radix, digits) := splitRadix rest
  if digits.isEmpty then .error .invalid
  else (readDigits radix 0 digits).map fun n => if neg then -(n : Int) else n

namespace ValueType

/-- Whether an integer lies in the range of an integer type. -/
def holds : ValueType → Int → Bool
  | .uint8, v => 0 ≤ v && v < 256
  | .int32, v => -2147483648 ≤ v && v < 2147483648
  | .uint32, v => 0 ≤ v && v < 4294967296
  | _, _ => false

/-- Whether the text, without its leading signs, starts with `inf` in any ASCII case. -/
def spellsInfinity (s : String) : Bool :=
  let body := (s.toList.dropWhile fun c => c = '+' ∨ c = '-').map Char.toLower
  body.take 3 == ['i', 'n', 'f']

/-- Reads a command-line argument as a value of the type. -/
def parse (t : ValueType) (raw : String) : Except Error Value :=
  let s := Text.trim raw
  match t with
  | .char => .error .charWrite
  | .uint8 | .int32 | .uint32 =>
    match readInteger s with
    | .error .invalid => .error (.invalidValue t s)
    | .error .overflow => .error (.outOfTypeRange t s)
    | .ok v =>
      if t.holds v then
        .ok (match t with
          | .uint8 => .uint8 (UInt8.ofNat v.toNat)
          | .int32 => .int32 (Int32.ofInt v)
          | _ => .uint32 (UInt32.ofNat v.toNat))
      else .error (.outOfTypeRange t s)
  | .float | .radians =>
    match Binary.Format.single.readText s with
    | none => .error (.invalidValue t s)
    | some bits =>
      let isInfinite := match Binary.Format.single.unpack bits with
        | .infinite _ => true
        | _ => false
      if isInfinite && !spellsInfinity s then .error (.outOfTypeRange t s)
      else
        let word := UInt32.ofNat bits
        .ok (if t = .float then .float word else .radians word)

end ValueType

end VoiceBench.Control
