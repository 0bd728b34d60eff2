import VoiceBench.Control.Value

/-!
# Commands

A command of a device: its name, the resource and command ids it is addressed by, the type
and number of the values it carries, its access mode, and the ranges a written value must lie
in. Reading a command sends its id with bit 7 set and receives a status byte followed by the
payload of `count * size` bytes. Both lengths are 64-bit machine words: for a count of `2 ^ 62`
four-byte values or more the product wraps.

`Command.accessFor` decides from the number of arguments whether a call reads or writes;
`Command.decode` and `Command.encode` are the payload codec; `Command.checkRanges` is the
range rule for written values.
-/

namespace VoiceBench.Control

/-- An inclusive interval of accepted values. -/
structure ValueRange where
  min : Float
  max : Float
  deriving Inhabited, Repr, BEq

namespace ValueRange

/-- Whether the interval contains the value (never for a NaN). -/
def contains (r : ValueRange) (v : Float) : Bool :=
  decide (r.min ≤ v) && decide (v ≤ r.max)

/-- Whether the interval holds no value: its lower end is not below or at its upper end. -/
def isEmpty (r : ValueRange) : Bool :=
  !decide (r.min ≤ r.max)

/-- The text `[min, max]`. -/
def text (r : ValueRange) : String :=
  s!"[{doubleText r.min}, {doubleText r.max}]"

end ValueRange

/-- The bit that marks a command id as a read. -/
def readBit : UInt8 := 0x80

/-- A command of a device. -/
structure Command where
  name : String
  resource : UInt8
  id : UInt8
  type : ValueType
  mode : AccessMode
  count : Nat
  info : String := ""
  hidden : Bool := false
  ranges : List ValueRange := []
  deriving Inhabited, Repr, BEq

namespace Command

/-- A visible command without ranges, its name uppercased. -/
def make (name : String) (resource id : UInt8) (type : ValueType) (mode : AccessMode)
    (count : Nat) (info : String) : Command :=
  { name := name.map Char.toUpper, resource, id, type, mode, count, info }

/-- Bytes of the payload: `count` values of the type's size, as a 64-bit machine word, so the
product wraps. -/
def payloadLength (c : Command) : Nat := c.count * c.type.size % Nat.pow 2 64

/-- Bytes of a read answer: the status byte and the payload, as a 64-bit machine word. -/
def readLength (c : Command) : Nat := (c.payloadLength + 1) % Nat.pow 2 64

/-- Below the word size the payload length is the exact product. -/
theorem payloadLength_of_lt {c : Command} (h : c.count * c.type.size < Nat.pow 2 64) :
    c.payloadLength = c.count * c.type.size :=
  Nat.mod_eq_of_lt h

/-- Below the word size a read answer is one byte longer than the payload. -/
theorem readLength_of_lt {c : Command} (h : c.payloadLength + 1 < Nat.pow 2 64) :
    c.readLength = c.payloadLength + 1 :=
  Nat.mod_eq_of_lt h

/-- A read answer is one byte longer than the payload, or, when the payload length is the
largest word, wraps to no bytes. -/
theorem readLength_cases (c : Command) :
    c.readLength = c.payloadLength + 1 ∨
      (c.readLength = 0 ∧ c.payloadLength + 1 = Nat.pow 2 64) := by
  have hlt : c.payloadLength < Nat.pow 2 64 := Nat.mod_lt _ (by decide)
  by_cases h : c.payloadLength + 1 < Nat.pow 2 64
  · exact .inl (readLength_of_lt h)
  · have heq : c.payloadLength + 1 = Nat.pow 2 64 := by omega
    refine .inr ⟨?_, heq⟩
    rw [readLength, heq, Nat.mod_self]

/-- The id a read is sent with. -/
def readId (c : Command) : UInt8 := c.id ||| readBit

/-- Listings and dumps show the command: it is not hidden, and its name starts neither with
`SPECIAL_CMD_` nor with `TEST_`. -/
def isListed (c : Command) : Bool :=
  !c.hidden && !c.name.startsWith "SPECIAL_CMD_" && !c.name.startsWith "TEST_"

/-- The wrong-count failure for `given` arguments. -/
def argCountError (c : Command) (given : Nat) : Error :=
  .argCount c.name c.mode c.count given

/-- No argument reads a readable command; exactly `count` arguments write a writable one. -/
def accessFor (c : Command) (given : Nat) : Except Error Access :=
  if given = 0 ∧ c.mode.readable then .ok .read
  else if given = c.count ∧ c.mode.writable then .ok .write
  else .error (c.argCountError given)

/-- Reads the arguments of a write; text commands cannot be written. -/
def parseValues (c : Command) (args : List String) : Except Error (List Value) :=
  if c.type = .char then .error .charWrite
  else args.mapM c.type.parse

/-- The texts of the ranges, separated by blanks. -/
def rangesText (c : Command) : String :=
  " ".intercalate (c.ranges.map ValueRange.text)

/-- Every value lies in some range, unless the command has none; the first value outside
all of them is reported. -/
def checkRanges (c : Command) (values : List Value) : Except Error Unit :=
  if c.ranges.isEmpty then .ok ()
  else
    match values.find? fun v => !c.ranges.any (·.contains v.toDouble) with
    | some v => .error (.outOfRange c.name v.text c.rangesText)
    | none => .ok ()

/-- The payload of a write: the values' wire forms in order. -/
def encode (values : List Value) : List UInt8 :=
  values.flatMap Value.toBytes

/-- The values of a read payload, which must have exactly `payloadLength` bytes. -/
def decode (c : Command) (payload : List UInt8) : Except Error (List Value) :=
  if payload.length ≠ c.payloadLength then .error (.command .read c.name .dataLengthError)
  else .ok ((Bytes.chunks c.type.size payload).filterMap (Value.ofBytes? c.type))

/-- The line a read prints: the characters of a text command, or the name followed by the
values. -/
def formatValues (c : Command) (values : List Value) : String :=
  if c.type = .char then String.join (values.map Value.text)
  else String.join (c.name :: values.map fun v => " " ++ v.text)

end Command

end VoiceBench.Control
