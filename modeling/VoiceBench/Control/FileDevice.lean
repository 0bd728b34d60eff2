import VoiceBench.Control.Device
import VoiceBench.Control.CommandMap
import VoiceBench.WorkDir

/-!
# The file-backed device

A simulated device whose registers are one file of 80 bytes, `test_buf.bin`, in the working
directory. Registration accepts the tag of the test map only. A write replaces the whole file
with the payload padded with zeros; a read answers a success status followed by the start of
the file, zero-padded, except that command id 5 answers a fixed device name. A missing or
unreadable file is a control error, a file of another size a data length error.
-/

namespace VoiceBench.Control

namespace FileDevice

/-- The file holding the registers. -/
def bufferFile : String := "test_buf.bin"

/-- The size of the register file: twenty values of four bytes. -/
def bufferLength : Nat := 80

/-- The command id that reads the device name. -/
def nameCommandId : UInt8 := 5

/-- The device name: the text `my name is Pavel` and four zero bytes. -/
def deviceName : List UInt8 :=
  "my name is Pavel".toList.map (fun c => UInt8.ofNat c.toNat) ++ [0, 0, 0, 0]

/-- The register file as a freshly reset device holds it. -/
def resetBuffer : List UInt8 := List.replicate bufferLength 0

/-- The register file's bytes, if it has the right size. -/
def load (w : WorkDir) : Except Status (List UInt8) :=
  match w.read bufferFile with
  | .error _ => .error .controlError
  | .ok bytes => if bytes.length = bufferLength then .ok bytes else .error .dataLengthError

/-- The answer to a read of `n` bytes of a command: a success status, then the source's
first bytes, zero-padded. -/
def answer (cmd : UInt8) (buf : List UInt8) (n : Nat) : List UInt8 :=
  let source := if cmd &&& ~~~readBit = nameCommandId then deviceName else buf
  0 :: (source.take (n - 1) ++ List.replicate (n - 1 - min (n - 1) source.length) 0)

/-- The register file with a payload written: the payload padded with zeros. -/
def store (payload : List UInt8) : List UInt8 :=
  payload ++ List.replicate (bufferLength - payload.length) 0

end FileDevice

open FileDevice in
/-- The file-backed device over a working directory. -/
def fileDevice : Device WorkDir where
  init info w := (if info = CommandMap.testInfo then .ok () else .error .registrationFailed, w)
  get _ cmd payload w :=
    if payload.length > bufferLength + 1 then (.error .dataLengthError, w)
    else
      match load w with
      | .error st => (.error st, w)
      | .ok buf =>
        if payload.isEmpty then (.error .dataLengthError, w)
        else (.ok (answer cmd buf payload.length), w)
  set _ _ payload w :=
    if payload.length > bufferLength then (.error .dataLengthError, w)
    else
      match w.write bufferFile (store payload) with
      | .ok w' => (.ok (), w')
      | .error _ => (.error .controlError, w)

end VoiceBench.Control
