/-!
# Device status codes

The status a device servicer answers with: success, the transport and registration
failures (codes 0 to 8) and the servicer failures (codes 64 to 73). `Status.ofCode?` reads
a raw status byte; `Status.nameOfCode` names any byte, `UNUSED_ENUM` for one that is no
status.
-/

namespace VoiceBench.Control

/-- A status a device answers a request with. -/
inductive Status where
  | success
  | registrationFailed
  | badCommand
  | dataLengthError
  | otherTransportError
  | badResource
  | malformedPacket
  | commandIgnoredInDevice
  | controlError
  | commandRetry
  | wrongCommandId
  | wrongCommandLen
  | wrongPayload
  | queueFull
  | specialCommandAlreadyOngoing
  | specialCommandBufferOverflow
  | resourceError
  | specialCommandWrongOrder
  | specialCommandBufSizeError
  deriving Repr, DecidableEq, Inhabited

namespace Status

/-- Every status, in order of code. -/
def all : List Status :=
  [success, registrationFailed, badCommand, dataLengthError, otherTransportError,
    badResource, malformedPacket, commandIgnoredInDevice, controlError, commandRetry,
    wrongCommandId, wrongCommandLen, wrongPayload, queueFull, specialCommandAlreadyOngoing,
    specialCommandBufferOverflow, resourceError, specialCommandWrongOrder,
    specialCommandBufSizeError]

/-- The status byte on the wire. -/
def code : Status → Nat
  | success => 0
  | registrationFailed => 1
  | badCommand => 2
  | dataLengthError => 3
  | otherTransportError => 4
  | badResource => 5
  | malformedPacket => 6
  | commandIgnoredInDevice => 7
  | controlError => 8
  | commandRetry => 64
  | wrongCommandId => 65
  | wrongCommandLen => 66
  | wrongPayload => 67
  | queueFull => 68
  | specialCommandAlreadyOngoing => 69
  | specialCommandBufferOverflow => 70
  | resourceError => 71
  | specialCommandWrongOrder => 72
  | specialCommandBufSizeError => 73

/-- The name of a status in the device's header. -/
def name : Status → String
  | success => "CONTROL_SUCCESS"
  | registrationFailed => "CONTROL_REGISTRATION_FAILED"
  | badCommand => "CONTROL_BAD_COMMAND"
  | dataLengthError => "CONTROL_DATA_LENGTH_ERROR"
  | otherTransportError => "CONTROL_OTHER_TRANSPORT_ERROR"
  | badResource => "CONTROL_BAD_RESOURCE"
  | malformedPacket => "CONTROL_MALFORMED_PACKET"
  | commandIgnoredInDevice => "CONTROL_COMMAND_IGNORED_IN_DEVICE"
  | controlError => "CONTROL_ERROR"
  | commandRetry => "SERVICER_COMMAND_RETRY"
  | wrongCommandId => "SERVICER_WRONG_COMMAND_ID"
  | wrongCommandLen => "SERVICER_WRONG_COMMAND_LEN"
  | wrongPayload => "SERVICER_WRONG_PAYLOAD"
  | queueFull => "SERVICER_QUEUE_FULL"
  | specialCommandAlreadyOngoing => "SERVICER_SPECIAL_COMMAND_ALREADY_ONGOING"
  | specialCommandBufferOverflow => "SERVICER_SPECIAL_COMMAND_BUFFER_OVERFLOW"
  | resourceError => "SERVICER_RESOURCE_ERROR"
  | specialCommandWrongOrder => "SERVICER_SPECIAL_COMMAND_WRONG_ORDER"
  | specialCommandBufSizeError => "SERVICER_SPECIAL_COMMAND_BUF_SIZE_ERROR"

/-- The status with the given code, if there is one. -/
def ofCode? (n : Nat) : Option Status := all.find? (·.code == n)

/-- The name of the status with the given code, or `UNUSED_ENUM`. -/
def nameOfCode (n : Nat) : String := ((ofCode? n).map name).getD "UNUSED_ENUM"

end Status

end VoiceBench.Control
