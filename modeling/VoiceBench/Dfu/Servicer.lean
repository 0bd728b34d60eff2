import VoiceBench.Dfu.Basic
import VoiceBench.Dfu.Commands
import VoiceBench.Control.Device
import VoiceBench.WorkDir

/-!
# The simulated firmware upgrade servicer

The device side of the upgrade protocol, serving two image files of the working directory:
the factory image, which is never written, and the upgrade image. After `SETALTERNATE` the
servicer is idle; a download alternates between `DNLOAD` blocks and `GETSTATUS` polls, and a
download block of length zero asks for manifestation, which writes the blocks received to the
selected image. An upload hands out the selected image in blocks of 64 bytes, a shorter block
ending it. A request that does not fit the state moves the servicer to the error state with a
status that `CLRSTATUS` clears.

A read request whose buffer has room for the status byte only, sent while an upload may start
or go on, makes the servicer index past its buffer: it halts, and `halted` records the
message.
-/

namespace VoiceBench.Dfu

open Control

/-- The state of the simulated servicer. -/
structure Servicer where
  state : State := .appIdle
  status : Status := .ok
  alternate : UInt8 := UInt8.ofNat altUpgrade
  download : List UInt8 := []
  upload : Option (List UInt8 × Nat) := none
  block : UInt16 := 0
  version : List UInt8 := [1, 0, 0]
  halted : Option String := none
  deriving Inhabited, Repr

namespace Servicer

/-- The image file behind an alternate setting. -/
def imageFile (alternate : UInt8) : String :=
  if alternate.toNat = altFactory then factoryImage else upgradeImage

/-- The error state with a status. -/
def fail (s : Servicer) (status : Status) : Servicer := { s with status, state := .error }

/-- The servicer with no transfer in progress. -/
def resetTransfers (s : Servicer) : Servicer := { s with download := [], upload := none, block := 0 }

/-- Writes the downloaded blocks to the selected image and returns to idle. -/
def manifest (s : Servicer) (w : WorkDir) : Servicer × WorkDir :=
  match w.write (imageFile s.alternate) s.download with
  | .ok w' => ({ s.resetTransfers with state := .dfuIdle }, w')
  | .error _ => (s.fail .write, w)

/-- The message of a read past the end of an empty buffer. -/
def emptyBufferMessage : String := "index out of bounds: the len is 0 but the index is 0"

/-- Fills the buffer after the status byte with the next upload block: its length, then its
bytes, then zeros. -/
def nextUploadBlock (s : Servicer) (w : WorkDir) (out : List UInt8) :
    Except Control.Status (List UInt8) × Servicer :=
  if !(s.state = .dfuIdle ∨ s.state = .uploadIdle) then
    (.error .commandIgnoredInDevice, s.fail .stalledPacket)
  else
    let started : Option (Servicer × List UInt8 × Nat) :=
      match s.upload with
      | some (image, offset) => some (s, image, offset)
      | none =>
        match w.read (imageFile s.alternate) with
        | .ok image => some ({ s with upload := some (image, 0) }, image, 0)
        | .error _ => none
    match started with
    | none => (.error .controlError, s.fail .file)
    | some (s, image, offset) =>
      let n := min (min (image.length - offset) blockSize) (out.length - 1)
      if out.isEmpty then (.error .controlError, { s with halted := some emptyBufferMessage })
      else
        let filled := UInt8.ofNat n :: ((image.drop offset).take n ++
          List.replicate (out.length - 1 - n) 0)
        let s := { s with upload := some (image, offset + n), block := s.block + 1 }
        if n < blockSize then
          (.ok filled, { s with upload := none, block := 0, state := .dfuIdle })
        else (.ok filled, { s with state := .uploadIdle })

/-- Takes a download block: a length byte, then at least that many bytes. -/
def acceptBlock (s : Servicer) (payload : List UInt8) : Except Control.Status Unit × Servicer :=
  match payload with
  | [] => (.error .wrongCommandLen, s)
  | len :: data =>
    let len := len.toNat
    if len > blockSize ∨ len > data.length then (.error .wrongPayload, s)
    else
      let idle := s.state = .dfuIdle ∨ s.state = .dnloadIdle
      if idle ∧ s.alternate.toNat = altFactory then (.ok (), s.fail .write)
      else if s.state = .dfuIdle ∧ len = 0 then (.ok (), s.fail .notDone)
      else if s.state = .dnloadIdle ∧ len = 0 then (.ok (), { s with state := .manifestSync })
      else if idle then
        let received := s.download ++ data.take len
        (.ok (), { s with download := received, block := s.block + 1, state := .dnloadSync })
      else (.ok (), s.fail .stalledPacket)

/-- The bytes of a buffer overwritten from the front by the given ones, as far as they fit. -/
def overwrite (out src : List UInt8) : List UInt8 :=
  src.take out.length ++ out.drop src.length

/-- A read request: the buffer with its status byte and answer, or a failure status. -/
def get (res cmd : UInt8) (payload : List UInt8) (s : Servicer) (w : WorkDir) :
    Except Control.Status (List UInt8) × Servicer × WorkDir :=
  if res ≠ resource then (.error .badResource, s, w)
  else
    match payload with
    | [] => (.error .dataLengthError, s, w)
    | _ :: out =>
      let ok (out : List UInt8) : Except Control.Status (List UInt8) := .ok (0 :: out)
      let id := (cmd &&& ~~~readBit).toNat
      if id = getStatusId then
        let (s, w) := match s.state with
          | .dnloadSync => ({ s with state := .dnloadIdle }, w)
          | .manifestSync => s.manifest w
          | _ => (s, w)
        if out.length < 5 then (.error .dataLengthError, s, w)
        else
          (ok (overwrite out [UInt8.ofNat s.status.code, 0, 0, 0, UInt8.ofNat s.state.code]), s, w)
      else if id = getStateId then
        if out.isEmpty then (.error .dataLengthError, s, w)
        else (ok (overwrite out [UInt8.ofNat s.state.code]), s, w)
      else if id = uploadId then
        let (r, s) := s.nextUploadBlock w out
        (r.map fun filled => 0 :: filled, s, w)
      else if id = transferBlockId then
        (ok (overwrite out [s.block.toUInt8, (s.block >>> 8).toUInt8]), s, w)
      else if id = getVersionId then (ok (overwrite out s.version), s, w)
      else (.error .wrongCommandId, s, w)

/-- A write request. -/
def set (res cmd : UInt8) (payload : List UInt8) (s : Servicer) (w : WorkDir) :
    Except Control.Status Unit × Servicer × WorkDir :=
  if res ≠ resource then (.error .badResource, s, w)
  else
    let id := cmd.toNat
    if id = setAlternateId then
      match payload with
      | [] => (.error .dataLengthError, s, w)
      | alt :: _ =>
        if alt.toNat ≠ altFactory ∧ alt.toNat ≠ altUpgrade then (.ok (), s.fail .target, w)
        else if s.state = .appIdle ∨ s.state = .dfuIdle then
          (.ok (), { s.resetTransfers with alternate := alt, state := .dfuIdle }, w)
        else (.ok (), s.fail .stalledPacket, w)
    else if id = dnloadId then
      let (r, s) := s.acceptBlock payload
      (r, s, w)
    else if id = clrStatusId then (.ok (), { s with status := .ok, state := .dfuIdle }, w)
    else if id = abortId then (.ok (), { s.resetTransfers with state := .dfuIdle }, w)
    else if id = transferBlockId then
      match payload with
      | lo :: hi :: _ => (.ok (), { s with block := lo.toUInt16 ||| (hi.toUInt16 <<< 8) }, w)
      | _ => (.error .dataLengthError, s, w)
    else if id = detachId ∨ id = rebootId then
      (.ok (), { s.resetTransfers with status := .ok, state := .appIdle }, w)
    else (.error .wrongCommandId, s, w)

end Servicer

/-- The simulated servicer as a device over its state and the working directory holding its
images. -/
def servicerDevice : Device (Servicer × WorkDir) where
  init info sw := (if info = mapInfo then .ok () else .error .registrationFailed, sw)
  get res cmd payload sw :=
    let (r, s, w) := Servicer.get res cmd payload sw.1 sw.2
    (r, s, w)
  set res cmd payload sw :=
    let (r, s, w) := Servicer.set res cmd payload sw.1 sw.2
    (r, s, w)

end VoiceBench.Dfu
