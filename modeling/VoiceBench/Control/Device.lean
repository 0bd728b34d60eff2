import VoiceBench.Control.Error

/-!
# Devices and transports

A device is seen through three transactions: registration with the command map's tag, a read
that fills a buffer with a status byte followed by the values, and a write of encoded values.
A transaction either succeeds or fails with a status code. The device keeps its own state
between transactions, so a device over states `σ` is a triple of state transformers; a file,
a simulated firmware or a scripted sequence of answers are all devices.
-/

namespace VoiceBench.Control

/-- A device keeping a state of type `σ`: each transaction gives its outcome and the state
after it. A read receives the buffer to fill (its length is the number of bytes wanted) and
gives the filled buffer. -/
structure Device (σ : Type) where
  init : String → σ → Except Status Unit × σ
  get : UInt8 → UInt8 → List UInt8 → σ → Except Status (List UInt8) × σ
  set : UInt8 → UInt8 → List UInt8 → σ → Except Status Unit × σ

/-- The transport a device is reached over. -/
inductive Protocol where
  | i2c
  | spi
  | usb
  deriving Inhabited, Repr, BEq, DecidableEq

namespace Protocol

/-- The lowercase name of a transport. -/
def name : Protocol → String
  | i2c => "i2c"
  | spi => "spi"
  | usb => "usb"

/-- The transport a name denotes, ignoring ASCII case. -/
def parse (s : String) : Except Error Protocol :=
  match s.map Char.toLower with
  | "i2c" => .ok i2c
  | "spi" => .ok spi
  | "usb" => .ok usb
  | _ => .error (.unknownProtocol s)

end Protocol

end VoiceBench.Control
