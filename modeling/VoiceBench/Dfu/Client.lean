import VoiceBench.Dfu.Basic
import VoiceBench.Dfu.Commands
import VoiceBench.Control.Host
import VoiceBench.Binary.Text

/-!
# The firmware upgrade client

The host side of the upgrade protocol, over any device. Every request is a command of the
upgrade map: reads go through the polling read, writes through the retrying write, with the
payload padded or cut to the command's size. `waitFor` polls the status until the device
reaches a state, clearing the status and failing if it reports an error; a download sends
the image in blocks of 64 bytes, waiting after each for the device to be ready, then a block of
length zero to have it manifested; an upload requests blocks until one is shorter than 64
bytes.
-/

namespace VoiceBench.Dfu

open Control

/-- The number of status polls before waiting for a state is given up. -/
def pollLimit : Nat := 1000

/-- The most blocks an upload requests: the limit of a machine word. -/
def uploadLimit : Nat := Nat.pow 2 64

/-- A client of a device with states `σ`. -/
structure Client (σ : Type) where
  device : Device σ

namespace Client

variable {σ : Type} (cl : Client σ)

/-- Registers with the device under the upgrade map's tag. -/
def init : HostM σ Unit := do
  match ← transact (cl.device.init commandMap.info) with
  | .ok () => pure ()
  | .error st => throw (.deviceInit st)

/-- The payload of a read request. -/
def request (name : String) : HostM σ (List UInt8) := do
  let c ← liftResult (commandMap.lookup name)
  readRaw cl.device c

/-- A write request, its payload padded with zeros or cut to the command's size. -/
def send (name : String) (payload : List UInt8) : HostM σ Unit := do
  let c ← liftResult (commandMap.lookup name)
  let n := c.payloadLength
  writeRaw cl.device c (payload.take n ++ List.replicate (n - payload.length) 0)

/-- The status and state the device reports. -/
def getStatus : HostM σ (Status × State) := do
  let values ← cl.request "DFU_GETSTATUS"
  let status := Status.ofCode (values.getD 0 0).toNat
  let state := (State.ofCode? (values.getD 4 0).toNat).getD .error
  pure (status, state)

/-- The state the device reports. -/
def getState : HostM σ State := do
  let values ← cl.request "DFU_GETSTATE"
  pure ((State.ofCode? (values.getD 0 0).toNat).getD .error)

/-- Clears an error status. -/
def clearStatus : HostM σ Unit := cl.send "DFU_CLRSTATUS" []

/-- Aborts the transfer in progress. -/
def abort : HostM σ Unit := cl.send "DFU_ABORT" []

/-- Selects the factory or the upgrade image. -/
def setAlternate (alt : UInt8) : HostM σ Unit := cl.send "DFU_SETALTERNATE" [alt]

/-- Polls the status up to `polls` more times until the device reports the target state;
`last` is the last status and state seen. -/
def waitLoop (target : State) : Nat → Status × State → HostM σ Unit
  | 0, last => throw (.dfu last.1 last.2)
  | n + 1, _ => do
    let (status, state) ← cl.getStatus
    if state = target then pure ()
    else if state = .error then do
      cl.clearStatus
      throw (.dfu status state)
    else waitLoop target n (status, state)

/-- Waits for the device to reach a state. -/
def waitFor (target : State) : HostM σ Unit := cl.waitLoop target pollLimit (.ok, .error)

/-- Waits for the device to be idle. -/
def waitIdle : HostM σ Unit := cl.waitFor .dfuIdle

/-- The progress line after `sent` of `total` bytes. -/
def progressText (sent total : Nat) : String :=
  "\rDownloaded " ++ doublePlaces (sent.toFloat / total.toFloat * 100.0) 2 ++ "% of the image"

/-- Sends one block of an image of `total` bytes after `sent` of them, waits for the device to
take it and reports the progress; the bytes sent with it. -/
def downloadBlock (total sent : Nat) (chunk : List UInt8) : HostM σ Nat := do
  cl.send "DFU_DNLOAD" (UInt8.ofNat chunk.length :: chunk)
  cl.waitFor .dnloadIdle
  let sent := sent + chunk.length
  emitText (progressText sent total)
  pure sent

/-- Downloads an image read from a path: its blocks, then the block asking for manifestation;
the number of bytes sent. -/
def download (path : String) (data : List UInt8) : HostM σ Nat := do
  emit s!"Download upgrade image {path}"
  let sent ← (Bytes.chunks blockSize data).foldlM (cl.downloadBlock data.length) 0
  emit ""
  emit "Download completed. Send DFU_DNLOAD message with size zero"
  cl.send "DFU_DNLOAD" [0]
  cl.waitIdle
  pure sent

/-- Requests upload blocks, at most `limit` more, after `blocks` non-empty ones received
into `image`, until a block shorter than 64 bytes ends the image. -/
def receive : Nat → Nat → List UInt8 → HostM σ (List UInt8)
  | 0, _, image => pure image
  | limit + 1, blocks, image => do
    let values ← cl.request "DFU_UPLOAD"
    let len := min (values.getD 0 0).toNat (values.length - 1)
    let image := image ++ (values.drop 1).take len
    let blocks := if len > 0 then blocks + 1 else blocks
    if len > 0 then emitText s!"\rUploaded {blocks} blocks of {blockSize} bytes"
    if len < blockSize then do
      emit ""
      emit s!"Received transport block with size {len} (smaller than {blockSize}): upload complete"
      pure image
    else receive limit blocks image

/-- Uploads the selected image, announced as going to a path; the bytes received. -/
def upload (dest : String) : HostM σ (List UInt8) := do
  emit s!"Uploading image to {dest}"
  cl.receive uploadLimit 0 []

/-- Reboots the device into the application. -/
def reboot : HostM σ Unit := do
  emit "Reboot device"
  cl.send "DFU_DETACH" []

/-- The firmware version the device reports. -/
def version : HostM σ (List UInt8) := do
  let values ← cl.request "DFU_GETVERSION"
  pure (values.take 3)

end Client

end VoiceBench.Dfu
