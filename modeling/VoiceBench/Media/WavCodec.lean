import VoiceBench.Media.Error

/-!
# Libraries of WAV files

Recordings are stored as WAV files through a library of their own. A file is written in two
steps: `WavCodec.create` takes the description of the file when it is opened, and `finish`
gives the bytes of the file once the interleaved samples are written to it. `read` opens the
bytes of a file into its description, the number of samples its data holds and the samples,
decoded one by one. What a library does with a description it cannot store, or with samples
past the width of their file, is its own.
-/

namespace VoiceBench.Media

/-- Integer or floating-point samples. -/
inductive SampleFormat where
  | int
  | float
  deriving DecidableEq, Repr

/-- The description of the samples of a file. -/
structure WavSpec where
  channels : Nat
  sampleRate : Nat
  bitsPerSample : Nat
  format : SampleFormat
  deriving DecidableEq, Repr

/-- A sample as written to or read from a file. -/
inductive Sample where
  | int (v : Int)
  | float (v : Float32)

/-- A file opened for reading: its description, the number of samples its data holds, and
its samples or why one of them cannot be decoded. -/
structure WavFile where
  spec : WavSpec
  numSamples : Nat
  samples : Except WavError (List Sample)

/-- A library of WAV files. -/
structure WavCodec where
  /-- Opens a file of a description for writing, or refuses the description. -/
  create : WavSpec → Except Error Unit
  /-- The bytes of a file of a description holding the interleaved samples. -/
  finish : WavSpec → List Sample → Except Error (List UInt8)
  /-- Opens the bytes of a file. -/
  read : List UInt8 → Except WavError WavFile

end VoiceBench.Media
