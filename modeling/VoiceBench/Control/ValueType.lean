/-!
# Value types and access modes

The element types a command carries, each with its size on the wire and its lowercase
name, and the access modes of a command: whether it may be read, written, or both.
-/

namespace VoiceBench.Control

/-- The element type of a command's values. -/
inductive ValueType where
  | char
  | uint8
  | int32
  | uint32
  | float
  | radians
  deriving Repr, DecidableEq, Inhabited

namespace ValueType

/-- Bytes one value occupies on the wire. -/
def size : ValueType → Nat
  | char | uint8 => 1
  | int32 | uint32 | float | radians => 4

/-- The lowercase name of the type. -/
def name : ValueType → String
  | char => "char"
  | uint8 => "uint8"
  | int32 => "int32"
  | uint32 => "uint32"
  | float => "float"
  | radians => "radians"

/-- Every type. -/
def all : List ValueType := [char, uint8, int32, uint32, float, radians]

/-- The type whose name equals the given text up to ASCII case. -/
def ofName? (s : String) : Option ValueType :=
  let lower := s.map Char.toLower
  all.find? (·.name == lower)

/-- The error text for a name that is no type. -/
def unknownMessage (s : String) : String :=
  "unknown parameter type '" ++ s.map Char.toLower ++ "'"

end ValueType

/-- Whether a command may be read, written, or both. -/
inductive AccessMode where
  | readOnly
  | writeOnly
  | readWrite
  deriving Repr, DecidableEq, Inhabited

namespace AccessMode

/-- The name shown in listings. -/
def name : AccessMode → String
  | readOnly => "READ ONLY"
  | writeOnly => "WRITE ONLY"
  | readWrite => "READ/WRITE"

/-- The short name used in command map files. -/
def tag : AccessMode → String
  | readOnly => "ro"
  | writeOnly => "wo"
  | readWrite => "rw"

/-- The mode with the given short name (exact case). -/
def ofTag? : String → Option AccessMode
  | "ro" => some readOnly
  | "wo" => some writeOnly
  | "rw" => some readWrite
  | _ => none

/-- Whether the command may be read. -/
def readable (m : AccessMode) : Bool := m != writeOnly

/-- Whether the command may be written. -/
def writable (m : AccessMode) : Bool := m != readOnly

end AccessMode

/-- The direction of one transaction. -/
inductive Access where
  | read
  | write
  deriving Repr, DecidableEq, Inhabited

/-- The capitalized name of a direction, as error texts use it. -/
def Access.name : Access → String
  | .read => "Read"
  | .write => "Write"

end VoiceBench.Control
