import VoiceBench.Control.CommandMap

/-!
# Firmware upgrade commands

Upgrade requests travel as ordinary commands to one dedicated resource. This module holds
the resource id, the command ids of the requests and the command map the upgrade client
addresses them through.
-/

namespace VoiceBench.Dfu

open Control

/-- The resource that serves upgrade requests. -/
def resource : UInt8 := 0xF0

/-- The registration tag of the upgrade command map. -/
def mapInfo : String := "dfu"

/-- Bytes of image data per transfer block. -/
def blockSize : Nat := 64

/-- The alternate setting that selects the factory image. -/
def altFactory : Nat := 0

/-- The alternate setting that selects the upgrade image. -/
def altUpgrade : Nat := 1

/-- The file holding the factory image. -/
def factoryImage : String := "dfu_factory.bin"

/-- The file holding the upgrade image. -/
def upgradeImage : String := "dfu_upgrade.bin"

/-- Command ids of the upgrade requests. -/
def detachId : Nat := 0
def dnloadId : Nat := 1
def uploadId : Nat := 2
def getStatusId : Nat := 3
def clrStatusId : Nat := 4
def getStateId : Nat := 5
def abortId : Nat := 6
def setAlternateId : Nat := 64
def transferBlockId : Nat := 65
def getVersionId : Nat := 88
def rebootId : Nat := 89

/-- The upgrade command map: every request as a byte command of the upgrade resource. -/
def commandMap : CommandMap where
  info := mapInfo
  commands :=
    let cmd (name : String) (id : Nat) (mode : AccessMode) (n : Nat) (info : String) :=
      Command.make name resource (UInt8.ofNat id) .uint8 mode n info
    [cmd "DFU_DETACH" detachId .writeOnly 1 "Leave DFU mode and restart the application",
      cmd "DFU_DNLOAD" dnloadId .writeOnly (blockSize + 1) "Length byte followed by one image block",
      cmd "DFU_UPLOAD" uploadId .readOnly (blockSize + 1) "Length byte followed by one image block",
      cmd "DFU_GETSTATUS" getStatusId .readOnly 5 "Status, 24-bit poll timeout in ms, state",
      cmd "DFU_CLRSTATUS" clrStatusId .writeOnly 1 "Clear an error status",
      cmd "DFU_GETSTATE" getStateId .readOnly 1 "Current DFU state",
      cmd "DFU_ABORT" abortId .writeOnly 1 "Abort the transfer and return to dfuIDLE",
      cmd "DFU_SETALTERNATE" setAlternateId .writeOnly 1 "Select the factory or upgrade image",
      cmd "DFU_TRANSFERBLOCK" transferBlockId .readWrite 2 "Current transfer block number",
      cmd "DFU_GETVERSION" getVersionId .readOnly 3 "Firmware version",
      cmd "DFU_REBOOT" rebootId .writeOnly 1 "Reboot the device"]

end VoiceBench.Dfu
