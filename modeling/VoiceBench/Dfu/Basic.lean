/-!
# Firmware upgrade states and statuses

The states and error statuses of the USB DFU 1.1 state machine, with the codes the device
reports them by and their names from the specification.
-/

namespace VoiceBench.Dfu

/-- A state of the firmware upgrade state machine. -/
inductive State where
  | appIdle
  | appDetach
  | dfuIdle
  | dnloadSync
  | dnBusy
  | dnloadIdle
  | manifestSync
  | manifest
  | manifestWaitReset
  | uploadIdle
  | error
  deriving Repr, DecidableEq, Inhabited

namespace State

/-- Every state, in order of code. -/
def all : List State :=
  [appIdle, appDetach, dfuIdle, dnloadSync, dnBusy, dnloadIdle, manifestSync, manifest,
    manifestWaitReset, uploadIdle, error]

/-- The code the device reports the state by. -/
def code : State → Nat
  | appIdle => 0
  | appDetach => 1
  | dfuIdle => 2
  | dnloadSync => 3
  | dnBusy => 4
  | dnloadIdle => 5
  | manifestSync => 6
  | manifest => 7
  | manifestWaitReset => 8
  | uploadIdle => 9
  | error => 10

/-- The name of the state in the specification. -/
def name : State → String
  | appIdle => "appIDLE"
  | appDetach => "appDETACH"
  | dfuIdle => "dfuIDLE"
  | dnloadSync => "dfuDNLOAD-SYNC"
  | dnBusy => "dfuDNBUSY"
  | dnloadIdle => "dfuDNLOAD-IDLE"
  | manifestSync => "dfuMANIFEST-SYNC"
  | manifest => "dfuMANIFEST"
  | manifestWaitReset => "dfuMANIFEST-WAIT-RESET"
  | uploadIdle => "dfuUPLOAD-IDLE"
  | error => "dfuERROR"

/-- The state with the given code, if there is one. -/
def ofCode? (n : Nat) : Option State := all.find? (·.code == n)

end State

/-- An error status of the firmware upgrade state machine (`ok` when there is none). -/
inductive Status where
  | ok
  | target
  | file
  | write
  | erase
  | checkErased
  | prog
  | verify
  | address
  | notDone
  | firmware
  | vendor
  | usbReset
  | powerOnReset
  | unknown
  | stalledPacket
  deriving Repr, DecidableEq, Inhabited

namespace Status

/-- Every status, in order of code. -/
def all : List Status :=
  [ok, target, file, write, erase, checkErased, prog, verify, address, notDone, firmware,
    vendor, usbReset, powerOnReset, unknown, stalledPacket]

/-- The code the device reports the status by. -/
def code : Status → Nat
  | ok => 0
  | target => 1
  | file => 2
  | write => 3
  | erase => 4
  | checkErased => 5
  | prog => 6
  | verify => 7
  | address => 8
  | notDone => 9
  | firmware => 10
  | vendor => 11
  | usbReset => 12
  | powerOnReset => 13
  | unknown => 14
  | stalledPacket => 15

/-- The name of the status in the specification. -/
def name : Status → String
  | ok => "OK"
  | target => "errTARGET"
  | file => "errFILE"
  | write => "errWRITE"
  | erase => "errERASE"
  | checkErased => "errCHECK_ERASED"
  | prog => "errPROG"
  | verify => "errVERIFY"
  | address => "errADDRESS"
  | notDone => "errNOTDONE"
  | firmware => "errFIRMWARE"
  | vendor => "errVENDOR"
  | usbReset => "errUSBR"
  | powerOnReset => "errPOR"
  | unknown => "errUNKNOWN"
  | stalledPacket => "errSTALLEDPKT"

/-- The status with the given code; a code that names none reads as `unknown`. -/
def ofCode (n : Nat) : Status := (all.find? (·.code == n)).getD unknown

end Status

end VoiceBench.Dfu
