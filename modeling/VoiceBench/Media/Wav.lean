import VoiceBench.Bytes
import VoiceBench.Media.WavCodec

/-!
# The built-in WAV library

The library of WAV files the tools run with, `WavCodec.builtin`: the RIFF WAVE container of
sampled audio, a `fmt ` chunk describing channels, rate and sample layout, and a `data` chunk
of interleaved little-endian samples.

Writing takes the classic 16-byte PCM description for at most two channels of at most
16 bits, and the 40-byte extensible description otherwise, with the lowest channels
assigned to speakers and the PCM or float sub-format. Only 8, 16, 24 and 32 bits are
written; 8-bit samples are unsigned, offset by 128. The chunk sizes count exactly the bytes
that follow, without a pad byte.

Reading walks the chunks until `data`, skipping unknown ones; of a `fact` chunk only its
first four bytes, the sample count, are read, whatever length it declares. It checks the
redundant fields of `fmt `: the container of a sample (block alignment over channels, a
16-bit count of bits) holds its bits, the byte rate is the block alignment times the rate,
and the bits are a non-zero multiple of eight. An extensible description gives the sample
width as its valid bits, or the declared bits when those are zero, and the container as the
declared bits; what it holds past its first forty bytes is not skipped. The data must hold a
whole number of samples and of frames. Samples are decoded one by one and a file that ends
early fails at the first missing sample.
-/

namespace VoiceBench.Media

/-- The sub-format identifier of integer samples in an extensible description. -/
def pcmGuid : List UInt8 :=
  [0x01, 0x00, 0x00, 0x00, 0x00, 0x00, 0x10, 0x00, 0x80, 0x00, 0x00, 0xaa, 0x00, 0x38, 0x9b, 0x71]

/-- The sub-format identifier of float samples in an extensible description. -/
def floatGuid : List UInt8 :=
  [0x03, 0x00, 0x00, 0x00, 0x00, 0x00, 0x10, 0x00, 0x80, 0x00, 0x00, 0xaa, 0x00, 0x38, 0x9b, 0x71]

/-- The ASCII bytes of a chunk tag. -/
def tagBytes (tag : String) : List UInt8 := tag.toList.map fun c => UInt8.ofNat c.toNat

/-- The speaker mask of the first channels, at most eighteen of them. -/
def channelMask (channels : Nat) : Nat := Nat.pow 2 (min channels 18) - 1

/-- Bytes of the container of one sample. -/
def WavSpec.containerBytes (spec : WavSpec) : Nat := (spec.bitsPerSample + 7) / 8

/-- Whether the extensible description is needed. -/
def WavSpec.extensible (spec : WavSpec) : Bool := spec.channels > 2 || spec.bitsPerSample > 16

/-- The body of the `fmt ` chunk: the classic description, or the extensible one when it is
needed. The byte rate is a 32-bit word and the block alignment is the byte rate over the rate. -/
def fmtBytes (spec : WavSpec) : List UInt8 :=
  let bytes := spec.containerBytes
  let byteRate := spec.sampleRate * bytes * spec.channels % Nat.pow 2 32
  let common := Bytes.toLE 2 spec.channels ++ Bytes.toLE 4 spec.sampleRate ++
    Bytes.toLE 4 byteRate ++ Bytes.toLE 2 (byteRate / spec.sampleRate) ++
    Bytes.toLE 2 (bytes * 8)
  if spec.extensible then
    Bytes.toLE 2 0xFFFE ++ common ++ Bytes.toLE 2 22 ++ Bytes.toLE 2 spec.bitsPerSample ++
      Bytes.toLE 4 (channelMask spec.channels) ++
      (if spec.format = .int then pcmGuid else floatGuid)
  else Bytes.toLE 2 (if spec.format = .int then 1 else 3) ++ common

/-- The header of a file whose data chunk holds `dataLen` bytes. A zero rate leaves the block
alignment undefined and aborts. -/
def wavHeader (spec : WavSpec) (dataLen : Nat) : Except Error (List UInt8) :=
  if spec.sampleRate = 0 then .error (.abort "attempt to divide by zero")
  else
    let fmt := fmtBytes spec
    .ok (tagBytes "RIFF" ++ Bytes.toLE 4 (4 + 8 + fmt.length + 8 + dataLen) ++ tagBytes "WAVE" ++
      tagBytes "fmt " ++ Bytes.toLE 4 fmt.length ++ fmt ++ tagBytes "data" ++ Bytes.toLE 4 dataLen)

/-- The bytes of an integer sample that fits its width; 8-bit samples are offset. -/
def intSampleBytes (bits : Nat) (v : Int) : List UInt8 :=
  if bits = 8 then [UInt8.ofNat (v + 128).toNat]
  else Bytes.toLE (bits / 8) (v % Nat.pow 2 bits).toNat

/-- The bytes of a sample in a file of `bits` bits per sample: a float as its encoding. -/
def sampleBytes (bits : Nat) : Sample → List UInt8
  | .int v => intSampleBytes bits v
  | .float v => Bytes.toLE 4 v.toBits.toNat

/-- A whole file: header and interleaved samples. Only 8, 16, 24 and 32 bits are written. -/
def encodeWav (spec : WavSpec) (samples : List Sample) : Except Error (List UInt8) := do
  if spec.bitsPerSample ∉ [8, 16, 24, 32] then throw (.wav .unsupported)
  let data := samples.flatMap (sampleBytes spec.bitsPerSample)
  pure ((← wavHeader spec data.length) ++ data)

/-- A file as read up to its data: the description, the bytes of a sample container, the
number of samples and the bytes from the start of the data on. -/
structure WavLayout where
  spec : WavSpec
  containerBytes : Nat
  numSamples : Nat
  data : List UInt8

/-- The first `n` bytes and the rest, failing at the end of the file. -/
def takeBytes (n : Nat) (bs : List UInt8) : Except WavError (List UInt8 × List UInt8) :=
  let front := bs.take n
  if front.length < n then .error .endOfFile else .ok (front, bs.drop n)

/-- A little-endian word of `n` bytes and the rest. -/
def takeWord (n : Nat) (bs : List UInt8) : Except WavError (Nat × List UInt8) := do
  let (w, rest) ← takeBytes n bs
  pure (Bytes.ofLE w, rest)

/-- Reads a `fmt ` chunk of the given length into a description and the container size. -/
def readFmt (len : Nat) (bs : List UInt8) : Except WavError ((WavSpec × Nat) × List UInt8) := do
  if len < 16 then throw (.format "invalid fmt chunk size")
  let (tag, bs) ← takeWord 2 bs
  let (channels, bs) ← takeWord 2 bs
  let (rate, bs) ← takeWord 4 bs
  let (byteRate, bs) ← takeWord 4 bs
  let (blockAlign, bs) ← takeWord 2 bs
  let (bits, bs) ← takeWord 2 bs
  if channels = 0 then throw (.format "number of channels is zero")
  let container := blockAlign / channels
  -- the container size in bits is a 16-bit word: past its range no sample fits
  if container * 8 > 0xFFFF ∨ bits > container * 8 then
    throw (.format "sample bits exceeds size of sample")
  if byteRate ≠ blockAlign * rate then throw (.format "inconsistent fmt chunk")
  if bits % 8 ≠ 0 then throw (.format "bits per sample is not a multiple of 8")
  if bits = 0 then throw (.format "bits per sample is 0")
  let spec : WavSpec := ⟨channels, rate, bits, .int⟩
  match tag with
  | 1 =>
    if len = 16 then pure ((spec, container), bs)
    else if len = 18 ∨ len = 40 then
      let (_, bs) ← takeBytes 2 bs
      if bits ≠ 8 ∧ bits ≠ 16 ∧ bits ≠ 24 then throw (.format "bits per sample is not 8 or 16")
      let (_, bs) ← takeBytes (if len = 40 then 22 else 0) bs
      pure ((spec, container), bs)
    else throw (.format "unexpected fmt chunk size")
  | 3 =>
    if len ≠ 16 ∧ len ≠ 18 then throw (.format "unexpected fmt chunk size")
    let bs ← if len = 18 then do
        let (cb, bs) ← takeWord 2 bs
        if cb ≠ 0 then throw (.format "unexpected WAVEFORMATEX size")
        pure bs
      else pure bs
    if bits ≠ 32 then throw (.format "bits per sample is not 32")
    pure (({ spec with format := .float }, container), bs)
  | 0xFFFE =>
    if len < 40 then throw (.format "unexpected fmt chunk size")
    let (cb, bs) ← takeWord 2 bs
    if cb ≠ 22 then throw (.format "unexpected WAVEFORMATEXTENSIBLE size")
    let (valid, bs) ← takeWord 2 bs
    let (_, bs) ← takeBytes 4 bs
    let (guid, bs) ← takeBytes 16 bs
    let format ← if guid = pcmGuid then pure SampleFormat.int
      else if guid = floatGuid then pure SampleFormat.float
      else throw .unsupported
    -- the valid bits name the sample width unless zero; the container is the declared bits,
    -- and bytes past the first forty stay unread
    let width := if valid > 0 then valid else bits
    pure (({ spec with bitsPerSample := width, format }, bits / 8), bs)
  | 2 => throw .unsupported
  | _ => throw .unsupported

/-- Walks the chunks up to `data`; `fuel` bounds the number of chunks. -/
def readChunks : Nat → Option (WavSpec × Nat) → List UInt8 →
    Except WavError ((WavSpec × Nat) × Nat × List UInt8)
  | 0, _, _ => .error .endOfFile
  | fuel + 1, fmt, bs => do
    let (tag, bs) ← takeBytes 4 bs
    let (len, bs) ← takeWord 4 bs
    if tag = tagBytes "fmt " then
      let (found, bs) ← readFmt len bs
      readChunks fuel (some found) bs
    else if tag = tagBytes "data" then
      match fmt with
      | some found => pure (found, len, bs)
      | none => throw (.format "missing fmt chunk")
    else if tag = tagBytes "fact" then
      -- only the sample count is read, whatever the chunk's length, and its absence is no
      -- failure
      let bs := (takeBytes 4 bs).toOption.map (·.2) |>.getD []
      readChunks fuel fmt bs
    else
      let (_, bs) ← takeBytes len bs
      readChunks fuel fmt bs

/-- Reads a file up to its data and checks that the data holds whole frames. -/
def readWavLayout (bytes : List UInt8) : Except WavError WavLayout := do
  let (riff, bs) ← takeBytes 4 bytes
  if riff ≠ tagBytes "RIFF" then throw (.format "no RIFF tag found")
  let (_, bs) ← takeBytes 4 bs
  let (wave, bs) ← takeBytes 4 bs
  if wave ≠ tagBytes "WAVE" then throw (.format "no WAVE tag found")
  let ((spec, container), len, data) ← readChunks bs.length none bs
  let numSamples := len / container
  if numSamples * container ≠ len then
    throw (.format "data chunk length is not a multiple of sample size")
  if numSamples % spec.channels ≠ 0 then throw (.format "invalid data chunk length")
  pure ⟨spec, container, numSamples, data⟩

/-- A signed integer of `bits` bits from its two's complement. -/
def signed (bits n : Nat) : Int := if n < Nat.pow 2 (bits - 1) then n else (n : Int) - Nat.pow 2 bits

/-- Decodes one sample from the front of the data. -/
def readSample (layout : WavLayout) (bs : List UInt8) : Except WavError (Sample × List UInt8) := do
  let bytes := layout.containerBytes
  let bits := layout.spec.bitsPerSample
  match layout.spec.format with
  | .int =>
    if bytes = 1 ∧ bits = 8 then
      let (n, rest) ← takeWord 1 bs
      pure (.int ((n : Int) - 128), rest)
    else if bytes > 4 then throw .tooWide
    else if (bytes = 2 ∧ bits = 16) ∨ (bytes = 3 ∧ bits = 24) ∨ (bytes = 4 ∧ bits = 32) then
      let (n, rest) ← takeWord bytes bs
      pure (.int (signed bits n), rest)
    else if bytes = 4 ∧ bits = 24 then
      let (n, rest) ← takeWord 4 bs
      pure (.int (signed 24 (n % Nat.pow 2 24)), rest)
    else throw .unsupported
  | .float =>
    if bytes = 4 ∧ bits = 32 then
      let (n, rest) ← takeWord 4 bs
      pure (.float (Float32.ofBits (UInt32.ofNat n)), rest)
    else if bytes > 4 then throw .tooWide
    else throw .unsupported

/-- Decodes `count` more samples of the data after the reversed samples `acc`. -/
def readSamples (layout : WavLayout) (acc : List Sample) :
    Nat → List UInt8 → Except WavError (List Sample)
  | 0, _ => .ok acc.reverse
  | count + 1, bs =>
    match readSample layout bs with
    | .ok (s, rest) => readSamples layout (s :: acc) count rest
    | .error e => .error e

/-- All samples of a file, interleaved. -/
def WavLayout.samples (layout : WavLayout) : Except WavError (List Sample) :=
  readSamples layout [] layout.numSamples layout.data

/-- The library: a description is refused at creation for a width other than 8, 16, 24 or 32
bits and aborts for a zero rate; a file is encoded by `encodeWav` and read by `readWavLayout`. -/
def WavCodec.builtin : WavCodec where
  create spec := do
    if spec.bitsPerSample ∉ [8, 16, 24, 32] then throw (.wav .unsupported)
    let _ ← wavHeader spec 0
  finish := encodeWav
  read bytes := do
    let layout ← readWavLayout bytes
    pure ⟨layout.spec, layout.numSamples, layout.samples⟩

end VoiceBench.Media
