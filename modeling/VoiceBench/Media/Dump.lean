import VoiceBench.Bytes
import VoiceBench.WorkDir
import VoiceBench.Media.Error

/-!
# Coefficient dumps

A dump is a headerless file of single-precision values, each four little-endian bytes, as
the host application writes buffers read off the device. Reading checks that the path
names a file and that its size is a whole number of values; writing replaces the file.

Values are held as the bits of their encodings, so a dump reads back bit for bit, the payload
of a NaN included.
-/

namespace VoiceBench.Media

/-- The bytes of a dump holding the values, each given by the bits of its encoding. -/
def dumpBytes (values : Array UInt32) : List UInt8 :=
  values.toList.flatMap fun v => Bytes.toLE 4 v.toNat

/-- The encodings of the values in dump bytes whose count is a multiple of four. -/
def dumpValues (bytes : List UInt8) : Array UInt32 :=
  ((Bytes.chunks 4 bytes).map fun c => UInt32.ofNat (Bytes.ofLE c)).toArray

/-- Reads a dump: the path must name a file of a whole number of values. -/
def readDump (w : WorkDir) (path : String) : Except Error (Array UInt32) :=
  if !w.isFile path then .error (.missingFile path)
  else
    match w.read path with
    | .error e => .error (.io e.message)
    | .ok bytes =>
      if bytes.length % 4 ≠ 0 then
        .error (.invalidInput path s!"size {bytes.length} is not a multiple of 4 bytes")
      else .ok (dumpValues bytes)

/-- Writes the values as a dump. -/
def writeDump (w : WorkDir) (path : String) (values : Array UInt32) : Except Error WorkDir :=
  match w.write path (dumpBytes values) with
  | .error e => .error (.io e.message)
  | .ok w' => .ok w'

end VoiceBench.Media
