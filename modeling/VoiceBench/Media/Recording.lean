import VoiceBench.Binary.Fused
import VoiceBench.PathName
import VoiceBench.WorkDir
import VoiceBench.Media.WavCodec

/-!
# Recordings

A recording is a named set of channels of equal length, normalized to `[-1, 1]`, with its
sample rate. Files are written and read through a library of WAV files. Reading a WAV file
de-interleaves its samples; integer samples of `b` bits are divided by `2 ^ (b - 1)`, float
samples are kept. Writing interleaves frame by frame; 32 bits write floats, fewer bits write
`x * 2 ^ (b - 1)` clamped to the integer range and truncated. The name of a recording read
from a file is the file's stem.
-/

namespace VoiceBench.Media

open Binary

/-- A named multi-channel recording. -/
structure Recording where
  name : String
  path : String
  sampleRate : Nat
  channels : List (Array Float32)

/-- What a WAV header says about its samples. -/
structure WavInfo where
  channels : Nat
  sampleRate : Nat
  bitsPerSample : Nat
  numFrames : Nat
  isFloat : Bool

namespace Recording

/-- The number of channels. -/
def numChannels (r : Recording) : Nat := r.channels.length

/-- The number of frames: the length of the first channel. -/
def numFrames (r : Recording) : Nat := (r.channels.head?.map Array.size).getD 0

/-- The samples of a channel, if the recording has it. -/
def channel? (r : Recording) (index : Nat) : Option (Array Float32) := r.channels[index]?

/-- The recording with every channel cut to at most `len` frames. -/
def truncate (r : Recording) (len : Nat) : Recording :=
  { r with channels := r.channels.map (·.extract 0 len) }

end Recording

/-- Every recording cut to the shortest frame count among them, and that count. -/
def truncateToCommon (recordings : List Recording) : Nat × List Recording :=
  let len := (recordings.map Recording.numFrames).min?.getD 0
  (len, recordings.map (·.truncate len))

/-- The WAV file at a path, opened. -/
def openWav (wav : WavCodec) (w : WorkDir) (path : String) : Except Error WavFile :=
  match w.read path with
  | .error e => .error (.wav (.io e.message))
  | .ok bytes =>
    match wav.read bytes with
    | .error e => .error (.wav e)
    | .ok file => .ok file

/-- The header facts of a WAV file, without decoding its samples. -/
def readWavInfo (wav : WavCodec) (w : WorkDir) (path : String) : Except Error WavInfo := do
  let file ← openWav wav w path
  let spec := file.spec
  pure ⟨spec.channels, spec.sampleRate, spec.bitsPerSample,
    file.numSamples / max spec.channels 1, spec.format = .float⟩

/-- The full scale of integer samples of `bits` bits. -/
def fullScale (bits : Nat) : Float32 := singleOfNat (Nat.pow 2 (bits - 1))

/-- A decoded sample normalized to `[-1, 1]`. -/
def Sample.normalized (scale : Float32) : Sample → Float32
  | .int v => singleOfInt v / scale
  | .float v => v

/-- Reads a WAV file into a recording named after the file's stem. -/
def readRecording (wav : WavCodec) (w : WorkDir) (path : String) : Except Error Recording := do
  if !w.isFile path then throw (.missingFile path)
  let file ← openWav wav w path
  let count := file.spec.channels
  if count = 0 then throw (.invalidInput path "WAV header declares zero channels")
  let scale := fullScale file.spec.bitsPerSample
  let samples ← match file.samples with
    | .ok s => pure (s.map (Sample.normalized scale)).toArray
    | .error e => throw (.wav e)
  let frames := samples.size / count
  let channels := (List.range count).map fun c =>
    (Array.range frames).map fun f => samples.getD (f * count + c) 0
  pure ⟨(PathName.fileStem? path).getD "", path, file.spec.sampleRate, channels⟩

/-- The sample written for a value: the float itself at 32 bits, otherwise the value
scaled to full scale, clamped to the integer range and truncated toward zero. -/
def sampleFor (bits : Nat) (x : Float32) : Sample :=
  if bits = 32 then .float x
  else
    let scale := fullScale bits
    let y := x * scale
    let y := if y < -scale then -scale else y
    let y := if y > scale - 1 then scale - 1 else y
    .int (castSingle (-(Nat.pow 2 31 : Int)) (Nat.pow 2 31 - 1) y)

/-- The interleaved samples of a recording, frame by frame; a channel shorter than the
first aborts at its first missing frame. -/
def interleave (r : Recording) (bits : Nat) : Except Error (List Sample) :=
  (List.range r.numFrames).flatMapM fun f =>
    r.channels.mapM fun ch =>
      match ch[f]? with
      | some x => .ok (sampleFor bits x)
      | none => .error (.abort s!"index out of bounds: the len is {ch.size} but the index is {f}")

/-- The description of the file a recording is written as: the channel count as a 16-bit
word, floats at 32 bits and integers otherwise. -/
def Recording.wavSpec (r : Recording) (bits : Nat) : WavSpec :=
  ⟨r.numChannels % Nat.pow 2 16, r.sampleRate, bits, if bits = 32 then .float else .int⟩

/-- Writes a recording as a WAV file of the given bits per sample. -/
def writeRecording (wav : WavCodec) (w : WorkDir) (path : String) (r : Recording) (bits : Nat) :
    Except Error WorkDir := do
  let spec := r.wavSpec bits
  wav.create spec
  let bytes ← wav.finish spec (← interleave r bits)
  match w.write path bytes with
  | .ok w' => pure w'
  | .error e => throw (.wav (.io e.message))

end VoiceBench.Media
