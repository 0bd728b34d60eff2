import Mathlib
import VoiceBench.Media.Wav
import VoiceBench.Proofs.Control.Codec

/-!
# Libraries that keep their files, and the built-in one

The recordings are written and read through a library of WAV files, and what is proved of them
asks one thing of the library: that it keeps the file a recording is written as
(`WavCodec.Keeps`). It opens the file's description for writing, and the bytes it writes for
the samples read back as the description, the number of samples and the samples themselves.

The built-in library keeps every file it can express (`WavCodec.builtin_keeps`): 8, 16, 24 or
32 bits, floats exactly at 32, at least one channel, a positive rate, and a block alignment,
byte rate and data length within their 16- and 32-bit fields (`WavSpec.Writable`), with samples
that fit the width (`Sample.Fits`) in whole frames. `encodeWav` writes a header and the
samples, each in `bits / 8` little-endian bytes, and `readWavLayout` and `WavLayout.samples`
read them back (`encodeWav_read_back`). Past `2 ^ 32` the byte rate wraps and the file written
is refused (`encodeWav_unreadable_of_byteRate_wraps`).

The header is read field by field: the `fmt ` chunk, classic or extensible, yields the
description and the container size (`readFmt_fmtBytes`), the chunk walk stops at `data`
(`readChunks_fmt_data`), and the data length is a whole number of frames
(`readWavLayout_header`). Each sample is decoded from its own bytes (`readSample_sampleBytes`):
an 8-bit sample through its offset of 128, a 16- or 24-bit one through its two's complement, a
float through its encoding, bit for bit.
-/

namespace VoiceBench.Media

/-! ## Taking bytes -/

theorem takeBytes_append {xs : List UInt8} {n : Nat} (h : xs.length = n) (ys : List UInt8) :
    takeBytes n (xs ++ ys) = .ok (xs, ys) := by
  subst h
  simp [takeBytes]

/-- A word written in `n` bytes reads back modulo `256 ^ n`. -/
theorem takeWord_toLE_mod (n v : Nat) (ys : List UInt8) :
    takeWord n (Bytes.toLE n v ++ ys) = .ok (v % 256 ^ n, ys) := by
  simp [takeWord, takeBytes_append (Bytes.toLE_length n v), bind, Except.bind, pure, Except.pure,
    Bytes.ofLE_toLE, Nat.pow_eq]

/-- A word written in `n` bytes is read back when it fits them. -/
theorem takeWord_toLE {n v : Nat} (h : v < 256 ^ n) (ys : List UInt8) :
    takeWord n (Bytes.toLE n v ++ ys) = .ok (v, ys) := by
  rw [takeWord_toLE_mod, Nat.mod_eq_of_lt h]

theorem takeWord_one (b : UInt8) (ys : List UInt8) : takeWord 1 (b :: ys) = .ok (b.toNat, ys) := by
  simp [takeWord, takeBytes, bind, Except.bind, pure, Except.pure, Bytes.ofLE]

/-! ## Samples -/

/-- A sample a file of `bits` bits per sample holds: an integer in the signed range of 8, 16 or
24 bits, or a float at 32 bits. -/
def Sample.Fits (bits : Nat) : Sample → Prop
  | .int v => (bits = 8 ∨ bits = 16 ∨ bits = 24) ∧ -2 ^ (bits - 1) ≤ v ∧ v < 2 ^ (bits - 1)
  | .float _ => bits = 32

/-- A layout of `bits`-bit samples in containers of `bits / 8` bytes, floats exactly at 32. -/
structure WavLayout.OfWidth (layout : WavLayout) (bits : Nat) : Prop where
  bits_eq : layout.spec.bitsPerSample = bits
  container_eq : layout.containerBytes = bits / 8
  format_eq : layout.spec.format = if bits = 32 then .float else .int

theorem length_sampleBytes {bits : Nat} {s : Sample} (hs : s.Fits bits) :
    (sampleBytes bits s).length = bits / 8 := by
  cases s with
  | int v =>
    obtain ⟨hbits, -, -⟩ := hs
    rcases hbits with rfl | rfl | rfl <;> simp [sampleBytes, intSampleBytes]
  | float v =>
    cases hs
    simp [sampleBytes]

/-- Blocks of `n` entries each, joined, have `n` entries per block. -/
theorem length_flatMap_of_length_eq {α β : Type} {xs : List α} {F : α → List β} {n : Nat}
    (h : ∀ a ∈ xs, (F a).length = n) : (xs.flatMap F).length = xs.length * n := by
  rw [List.length_flatMap, List.map_congr_left h, List.map_const', List.sum_replicate, smul_eq_mul]

theorem length_flatMap_sampleBytes {bits : Nat} {ss : List Sample} (hs : ∀ s ∈ ss, s.Fits bits) :
    (ss.flatMap (sampleBytes bits)).length = ss.length * (bits / 8) :=
  length_flatMap_of_length_eq fun s hmem => length_sampleBytes (hs s hmem)

/-- A sample that fits the width is decoded from its own bytes. -/
theorem readSample_sampleBytes {layout : WavLayout} {bits : Nat} (hl : layout.OfWidth bits)
    {s : Sample} (hs : s.Fits bits) (rest : List UInt8) :
    readSample layout (sampleBytes bits s ++ rest) = .ok (s, rest) := by
  obtain ⟨hb, hc, hf⟩ := hl
  cases s with
  | int v =>
    obtain ⟨hbits, hlo, hhi⟩ := hs
    rcases hbits with rfl | rfl | rfl
    · simp [readSample, hb, hc, hf, sampleBytes, intSampleBytes, bind, Except.bind, pure, Except.pure,
        takeWord_one]
      omega
    · -- the two's complement of a value in the signed range reads back as the value
      have hn : (v % 65536).toNat < 256 ^ 2 := by omega
      simp [readSample, hb, hc, hf, sampleBytes, intSampleBytes, bind, Except.bind, pure, Except.pure,
        takeWord_toLE hn, signed]
      split_ifs <;> omega
    · have hn : (v % 16777216).toNat < 256 ^ 3 := by omega
      simp [readSample, hb, hc, hf, sampleBytes, intSampleBytes, bind, Except.bind, pure, Except.pure,
        takeWord_toLE hn, signed]
      split_ifs <;> omega
  | float v =>
    subst hs
    have hn : v.toBits.toNat < 256 ^ 4 := v.toBits.toNat_lt
    simp [readSample, hb, hc, hf, sampleBytes, bind, Except.bind, pure, Except.pure, takeWord_toLE hn]

/-- Samples that fit the width are decoded one after the other from their bytes. -/
theorem readSamples_flatMap {layout : WavLayout} {bits : Nat} (hl : layout.OfWidth bits)
    {ss : List Sample} (hs : ∀ s ∈ ss, s.Fits bits) (acc : List Sample) (rest : List UInt8) :
    readSamples layout acc ss.length (ss.flatMap (sampleBytes bits) ++ rest) =
      .ok (acc.reverse ++ ss) := by
  induction ss generalizing acc with
  | nil => simp [readSamples]
  | cons s ss ih =>
    rw [List.flatMap_cons, List.append_assoc, List.length_cons, readSamples,
      readSample_sampleBytes hl (hs s List.mem_cons_self)]
    simp only
    rw [ih (fun t ht => hs t (List.mem_cons_of_mem s ht))]
    simp

/-! ## The `fmt ` chunk -/

/-- What the writer can express: 8, 16, 24 or 32 bits, floats exactly at 32, at least one
channel, a positive rate, and a block alignment and byte rate within their fields. -/
structure WavSpec.Writable (spec : WavSpec) : Prop where
  bits_mem : spec.bitsPerSample = 8 ∨ spec.bitsPerSample = 16 ∨ spec.bitsPerSample = 24 ∨
    spec.bitsPerSample = 32
  format_eq : spec.format = if spec.bitsPerSample = 32 then .float else .int
  channels_pos : 0 < spec.channels
  block_lt : spec.channels * (spec.bitsPerSample / 8) < 2 ^ 16
  rate_pos : 0 < spec.sampleRate
  byteRate_lt : spec.sampleRate * (spec.bitsPerSample / 8) * spec.channels < 2 ^ 32

/-- The widths the writer takes, as the list it checks. -/
theorem mem_widths {bits : Nat} (h : bits = 8 ∨ bits = 16 ∨ bits = 24 ∨ bits = 32) :
    bits ∈ [8, 16, 24, 32] := by
  rcases h with h | h | h | h <;> simp [h]

/-- The fields shared by both descriptions: the channels and the rate fit their words, and the
block alignment, the byte rate over the rate, holds a container per channel. -/
theorem fmt_common_fields {C rate bits : Nat} (hC : 0 < C) (hblock : C * (bits / 8) < 65536)
    (hrate : 0 < rate) (hbr : rate * (bits / 8) * C < 4294967296) (hbits : 8 ≤ bits) :
    C < 65536 ∧ rate < 4294967296 ∧
      rate * (bits / 8) * C % 4294967296 / rate = C * (bits / 8) ∧
      C * (bits / 8) / C = bits / 8 := by
  have hC8 : C ≤ C * (bits / 8) := Nat.le_mul_of_pos_right _ (by omega)
  have hr8 : rate ≤ rate * (bits / 8) * C :=
    (Nat.le_mul_of_pos_right _ (by omega)).trans (Nat.le_mul_of_pos_right _ hC)
  refine ⟨by omega, by omega, ?_, Nat.mul_div_cancel_left _ hC⟩
  rw [Nat.mod_eq_of_lt hbr, Nat.mul_assoc, Nat.mul_div_cancel_left _ hrate, Nat.mul_comm]

/-- The classic description of 8 or 16 integer bits. -/
theorem readFmt_pcm {C rate bits : Nat} (hC : 0 < C) (hblock : C * (bits / 8) < 65536)
    (hrate : 0 < rate) (hbr : rate * (bits / 8) * C < 4294967296) (hbits : bits = 8 ∨ bits = 16)
    (rest : List UInt8) :
    readFmt 16 (Bytes.toLE 2 1 ++ Bytes.toLE 2 C ++ Bytes.toLE 4 rate ++
      Bytes.toLE 4 (rate * (bits / 8) * C % 4294967296) ++
      Bytes.toLE 2 (rate * (bits / 8) * C % 4294967296 / rate) ++ Bytes.toLE 2 (bits / 8 * 8) ++
      rest) = .ok ((⟨C, rate, bits, .int⟩, bits / 8), rest) := by
  obtain ⟨h1, h2, hba, hdiv⟩ := fmt_common_fields hC hblock hrate hbr (by omega)
  have hw : bits / 8 * 8 = bits := by omega
  have h3 : bits < 65536 := by omega
  rw [hba, hw, Nat.mod_eq_of_lt hbr]
  simp only [List.append_assoc]
  simp [readFmt, takeWord_toLE, h1, h2, h3, hbr, hblock, bind, Except.bind, pure, Except.pure, throw,
    throwThe, MonadExceptOf.throw]
  rw [if_neg hC.ne', hdiv, if_neg (by omega), if_pos (by ring), if_pos (by omega), if_neg (by omega)]

/-- The extensible description, whose sub-format names integers or floats. -/
theorem readFmt_extensible {C rate bits mask : Nat} {format : SampleFormat} (hC : 0 < C)
    (hblock : C * (bits / 8) < 65536) (hrate : 0 < rate) (hbr : rate * (bits / 8) * C < 4294967296)
    (hbits : bits = 8 ∨ bits = 16 ∨ bits = 24 ∨ bits = 32) (rest : List UInt8) :
    readFmt 40 (Bytes.toLE 2 0xFFFE ++ Bytes.toLE 2 C ++ Bytes.toLE 4 rate ++
      Bytes.toLE 4 (rate * (bits / 8) * C % 4294967296) ++
      Bytes.toLE 2 (rate * (bits / 8) * C % 4294967296 / rate) ++ Bytes.toLE 2 (bits / 8 * 8) ++
      Bytes.toLE 2 22 ++ Bytes.toLE 2 bits ++ Bytes.toLE 4 mask ++
      (if format = .int then pcmGuid else floatGuid) ++ rest) =
      .ok ((⟨C, rate, bits, format⟩, bits / 8), rest) := by
  obtain ⟨h1, h2, hba, hdiv⟩ := fmt_common_fields hC hblock hrate hbr (by omega)
  have hw : bits / 8 * 8 = bits := by omega
  have h3 : bits < 65536 := by omega
  have hguid : (if format = .int then pcmGuid else floatGuid).length = 16 := by
    split_ifs <;> rfl
  rw [hba, hw, Nat.mod_eq_of_lt hbr]
  simp only [List.append_assoc]
  simp [readFmt, takeWord_toLE, h1, h2, h3, hbr, hblock, bind, Except.bind, pure, Except.pure, throw,
    throwThe, MonadExceptOf.throw, takeBytes_append (Bytes.toLE_length 4 mask), takeBytes_append hguid]
  rw [if_neg hC.ne', hdiv, if_neg (by omega), if_pos (by ring), if_pos (by omega), if_neg (by omega)]
  have hne : floatGuid ≠ pcmGuid := by decide
  cases format <;> simp [hne]

/-- The `fmt ` chunk of a writable description reads back as the description and the container
size of its samples. -/
theorem readFmt_fmtBytes {spec : WavSpec} (hs : spec.Writable) (rest : List UInt8) :
    readFmt (fmtBytes spec).length (fmtBytes spec ++ rest) =
      .ok ((spec, spec.bitsPerSample / 8), rest) := by
  obtain ⟨C, rate, bits, format⟩ := spec
  obtain ⟨hbits, hformat, hC, hblock, hrate, hbr⟩ := hs
  dsimp only at hbits hformat hC hblock hrate hbr ⊢
  have hcb : (bits + 7) / 8 = bits / 8 := by omega
  norm_num at hblock hbr
  simp only [fmtBytes, WavSpec.containerBytes, WavSpec.extensible, hcb, Nat.pow_eq, Nat.reducePow]
  by_cases hext : (decide (C > 2) || decide (bits > 16)) = true
  · have hg : (if format = .int then pcmGuid else floatGuid).length = 16 := by split_ifs <;> rfl
    rw [if_pos hext]
    simp only [List.length_append, Bytes.toLE_length, hg, Nat.reduceAdd]
    simpa only [List.append_assoc] using readFmt_extensible hC hblock hrate hbr hbits rest
  · -- the classic description is written for integers only: floats have 32 bits
    have hb16 : bits = 8 ∨ bits = 16 := by simp at hext; omega
    have hint : format = .int := by rw [hformat, if_neg (by omega)]
    subst hint
    rw [if_neg hext, if_pos rfl]
    simp only [List.length_append, Bytes.toLE_length, Nat.reduceAdd]
    simpa only [List.append_assoc] using readFmt_pcm hC hblock hrate hbr hb16 rest

/-- A byte rate that wrapped past `2 ^ 32` leaves a block alignment too small to hold a container
per channel, and the description is refused, whatever its tag. -/
theorem readFmt_of_byteRate_wraps {len tag C rate bits : Nat} (hlen : 16 ≤ len)
    (htag : tag < 65536) (hC : 0 < C) (hC' : C < 65536) (hrate : rate < 4294967296) (hbits : bits = 8 ∨ bits = 16 ∨ bits = 24 ∨ bits = 32)
    (hwrap : 4294967296 ≤ rate * (bits / 8) * C) (rest : List UInt8) :
    readFmt len (Bytes.toLE 2 tag ++ Bytes.toLE 2 C ++ Bytes.toLE 4 rate ++
      Bytes.toLE 4 (rate * (bits / 8) * C % 4294967296) ++
      Bytes.toLE 2 (rate * (bits / 8) * C % 4294967296 / rate) ++ Bytes.toLE 2 (bits / 8 * 8) ++
      rest) = .error (.format "sample bits exceeds size of sample") := by
  have h3 : bits / 8 * 8 < 65536 := by omega
  have hbr : rate * (bits / 8) * C % 4294967296 < 4294967296 := Nat.mod_lt _ (by norm_num)
  -- the wrapped byte rate is below a container per channel at the rate, and so is the alignment
  have hsmall : rate * (bits / 8) * C % 4294967296 / rate % 65536 / C < bits / 8 := by
    have hlt : rate * (bits / 8) * C % 4294967296 < rate * (bits / 8 * C) := by
      rw [← Nat.mul_assoc]
      omega
    have halign : rate * (bits / 8) * C % 4294967296 / rate < bits / 8 * C :=
      Nat.div_lt_of_lt_mul hlt
    calc rate * (bits / 8) * C % 4294967296 / rate % 65536 / C
        ≤ rate * (bits / 8) * C % 4294967296 / rate / C := Nat.div_le_div_right (Nat.mod_le _ _)
      _ < bits / 8 := Nat.div_lt_of_lt_mul (by rw [Nat.mul_comm C (bits / 8)]; exact halign)
  simp only [List.append_assoc]
  simp [readFmt, takeWord_toLE, takeWord_toLE_mod, htag, hC', hrate, hbr, h3, bind, Except.bind,
    pure, Except.pure, throw, throwThe, MonadExceptOf.throw, not_lt.2 hlen]
  rw [if_neg hC.ne', if_pos (Or.inr (by omega))]

theorem length_fmtBytes_le (spec : WavSpec) : (fmtBytes spec).length ≤ 40 := by
  have hp : pcmGuid.length = 16 := rfl
  have hf : floatGuid.length = 16 := rfl
  unfold fmtBytes
  split_ifs <;> simp only [List.length_append, Bytes.toLE_length, hp, hf] <;> omega

/-! ## The header -/

theorem tagBytes_literals : tagBytes "RIFF" = [82, 73, 70, 70] ∧ tagBytes "WAVE" = [87, 65, 86, 69] ∧
    tagBytes "fmt " = [102, 109, 116, 32] ∧ tagBytes "data" = [100, 97, 116, 97] := by
  simp [tagBytes, String.reduceToList]

/-- Every chunk tag is four bytes. -/
theorem length_tagBytes_literals : (tagBytes "RIFF").length = 4 ∧ (tagBytes "WAVE").length = 4 ∧
    (tagBytes "fmt ").length = 4 ∧ (tagBytes "data").length = 4 := by
  obtain ⟨hr, hw, hf, hd⟩ := tagBytes_literals
  rw [hr, hw, hf, hd]
  exact ⟨rfl, rfl, rfl, rfl⟩

/-- The header of a description with a rate: `RIFF` and the size of what follows, `WAVE`, the
`fmt ` chunk and the head of the `data` chunk. -/
theorem wavHeader_eq_ok {spec : WavSpec} (hrate : spec.sampleRate ≠ 0) (dataLen : Nat) :
    wavHeader spec dataLen = .ok (tagBytes "RIFF" ++
      Bytes.toLE 4 (4 + 8 + (fmtBytes spec).length + 8 + dataLen) ++ tagBytes "WAVE" ++
      tagBytes "fmt " ++ Bytes.toLE 4 (fmtBytes spec).length ++ fmtBytes spec ++ tagBytes "data" ++
      Bytes.toLE 4 dataLen) :=
  if_neg hrate

/-- A `fmt ` chunk followed by a `data` chunk: the walk reads the description and stops at the
data. -/
theorem readChunks_fmt_data {fuel len dlen : Nat} {fmt data : List UInt8} {found : WavSpec × Nat}
    (hfuel : 2 ≤ fuel) (hlen : len < 4294967296) (hdlen : dlen < 4294967296)
    (hfmt : readFmt len (fmt ++ (tagBytes "data" ++ Bytes.toLE 4 dlen ++ data)) =
      .ok (found, tagBytes "data" ++ Bytes.toLE 4 dlen ++ data)) :
    readChunks fuel none
        (tagBytes "fmt " ++ Bytes.toLE 4 len ++ fmt ++ tagBytes "data" ++ Bytes.toLE 4 dlen ++ data) =
      .ok (found, dlen, data) := by
  obtain ⟨k, rfl⟩ : ∃ k, fuel = k + 2 := ⟨fuel - 2, by omega⟩
  obtain ⟨-, -, hf, hd⟩ := tagBytes_literals
  obtain ⟨-, -, hfl, hdl⟩ := length_tagBytes_literals
  have hne : tagBytes "data" ≠ tagBytes "fmt " := by rw [hf, hd]; decide
  simp only [List.append_assoc] at hfmt ⊢
  simp [readChunks, takeBytes_append hfl, takeBytes_append hdl, takeWord_toLE, hlen, hdlen, hfmt, hne,
    bind, Except.bind, pure, Except.pure]

/-- The header of a writable description over data of whole frames reads back as the
description, its containers, the number of samples and the data. -/
theorem readWavLayout_header {spec : WavSpec} (hs : spec.Writable) {data : List UInt8}
    (hlen : data.length < 2 ^ 32) {n : Nat} (hn : data.length = n * (spec.bitsPerSample / 8))
    (hnc : n % spec.channels = 0) :
    ∃ header, wavHeader spec data.length = .ok header ∧
      readWavLayout (header ++ data) = .ok ⟨spec, spec.bitsPerSample / 8, n, data⟩ := by
  refine ⟨_, wavHeader_eq_ok hs.rate_pos.ne' _, ?_⟩
  have hfmt := readFmt_fmtBytes hs (tagBytes "data" ++ Bytes.toLE 4 data.length ++ data)
  have hflen : (fmtBytes spec).length < 4294967296 := (length_fmtBytes_le spec).trans_lt (by norm_num)
  have hdlen : data.length < 4294967296 := by simpa using hlen
  have hfuel : 2 ≤ (tagBytes "fmt " ++ Bytes.toLE 4 (fmtBytes spec).length ++
      fmtBytes spec ++ tagBytes "data" ++ Bytes.toLE 4 data.length ++ data).length := by
    simp only [List.length_append, Bytes.toLE_length]
    omega
  have hchunks := readChunks_fmt_data hfuel hflen hdlen hfmt
  obtain ⟨hrl, hwl, -, -⟩ := length_tagBytes_literals
  have hbytes : 0 < spec.bitsPerSample / 8 := by rcases hs.bits_mem with h | h | h | h <;> omega
  simp only [List.append_assoc] at hchunks ⊢
  unfold readWavLayout
  rw [takeBytes_append hrl]
  simp only [bind, Except.bind, takeBytes_append hwl, takeBytes_append (Bytes.toLE_length 4 _),
    ne_eq, not_true_eq_false, if_false, hchunks]
  simp [pure, Except.pure, hn, Nat.mul_div_cancel _ hbytes, hnc]

/-- A chunk walk that meets a refused description fails with its error. -/
theorem readChunks_fmt_error {fuel len : Nat} {fmt rest : List UInt8} {e : WavError}
    (hfuel : 1 ≤ fuel) (hlen : len < 4294967296) (hfmt : readFmt len (fmt ++ rest) = .error e) :
    readChunks fuel none (tagBytes "fmt " ++ Bytes.toLE 4 len ++ fmt ++ rest) = .error e := by
  obtain ⟨k, rfl⟩ : ∃ k, fuel = k + 1 := ⟨fuel - 1, by omega⟩
  obtain ⟨-, -, hfl, -⟩ := length_tagBytes_literals
  simp only [List.append_assoc] at hfmt ⊢
  simp [readChunks, takeBytes_append hfl, takeWord_toLE, hlen, hfmt, bind, Except.bind]

/-- A header whose description is refused makes the file unreadable. -/
theorem readWavLayout_of_readFmt_error {spec : WavSpec} (hrate : spec.sampleRate ≠ 0)
    {data : List UInt8} {e : WavError}
    (hfmt : readFmt (fmtBytes spec).length
      (fmtBytes spec ++ (tagBytes "data" ++ Bytes.toLE 4 data.length ++ data)) = .error e) :
    ∃ header, wavHeader spec data.length = .ok header ∧ readWavLayout (header ++ data) = .error e := by
  refine ⟨_, wavHeader_eq_ok hrate _, ?_⟩
  have hflen : (fmtBytes spec).length < 4294967296 := (length_fmtBytes_le spec).trans_lt (by norm_num)
  have hfuel : 1 ≤ (tagBytes "fmt " ++ Bytes.toLE 4 (fmtBytes spec).length ++
      fmtBytes spec ++ tagBytes "data" ++ Bytes.toLE 4 data.length ++ data).length := by
    simp only [List.length_append, Bytes.toLE_length]
    omega
  have hchunks := readChunks_fmt_error hfuel hflen hfmt
  obtain ⟨hrl, hwl, -, -⟩ := length_tagBytes_literals
  simp only [List.append_assoc] at hchunks ⊢
  unfold readWavLayout
  rw [takeBytes_append hrl]
  simp only [bind, Except.bind, takeBytes_append hwl, takeBytes_append (Bytes.toLE_length 4 _),
    ne_eq, not_true_eq_false, if_false, hchunks]

/-- The description written always opens with the fields both forms share: a tag, the channels,
the rate, the byte rate as a 32-bit word, the block alignment and the container bits. -/
theorem fmtBytes_eq_common (spec : WavSpec) : ∃ tag tail, tag < 65536 ∧
    fmtBytes spec = Bytes.toLE 2 tag ++ Bytes.toLE 2 spec.channels ++ Bytes.toLE 4 spec.sampleRate ++
      Bytes.toLE 4 (spec.sampleRate * spec.containerBytes * spec.channels % 4294967296) ++
      Bytes.toLE 2 (spec.sampleRate * spec.containerBytes * spec.channels % 4294967296 /
        spec.sampleRate) ++ Bytes.toLE 2 (spec.containerBytes * 8) ++ tail := by
  unfold fmtBytes
  simp only [Nat.pow_eq, Nat.reducePow]
  by_cases hext : spec.extensible = true
  · rw [if_pos hext]
    exact ⟨0xFFFE, Bytes.toLE 2 22 ++ Bytes.toLE 2 spec.bitsPerSample ++
      Bytes.toLE 4 (channelMask spec.channels) ++ (if spec.format = .int then pcmGuid else floatGuid),
      by norm_num, by simp only [List.append_assoc]⟩
  · rw [if_neg hext]
    exact ⟨if spec.format = .int then 1 else 3, [], by split_ifs <;> norm_num,
      by simp only [List.append_assoc, List.append_nil]⟩

/-! ## Whole files -/

/-- Samples that fit a writable description, in whole frames and fewer than `2 ^ 32` bytes, are
encoded into a file that reads back as the description and the same samples. -/
theorem encodeWav_read_back {spec : WavSpec} (hs : spec.Writable) {ss : List Sample}
    (hfit : ∀ s ∈ ss, s.Fits spec.bitsPerSample) (hframes : ss.length % spec.channels = 0)
    (hlen : ss.length * (spec.bitsPerSample / 8) < 2 ^ 32) :
    ∃ bytes, encodeWav spec ss = .ok bytes ∧ ∃ layout, readWavLayout bytes = .ok layout ∧
      layout.spec = spec ∧ layout.numSamples = ss.length ∧ layout.samples = .ok ss := by
  have hdata := length_flatMap_sampleBytes hfit
  obtain ⟨header, hh, hread⟩ := readWavLayout_header hs (hdata ▸ hlen) hdata hframes
  have hmem := mem_widths hs.bits_mem
  have hwidth : WavLayout.OfWidth ⟨spec, spec.bitsPerSample / 8, ss.length,
      ss.flatMap (sampleBytes spec.bitsPerSample)⟩ spec.bitsPerSample := ⟨rfl, rfl, hs.format_eq⟩
  refine ⟨header ++ ss.flatMap (sampleBytes spec.bitsPerSample), ?_, _, hread, rfl, rfl, ?_⟩
  · simp only [encodeWav, hmem, not_true_eq_false, ↓reduceIte, bind, Except.bind, hh, pure,
      Except.pure]
  · have hsamples := readSamples_flatMap hwidth hfit [] []
    rw [List.append_nil] at hsamples
    simpa [WavLayout.samples] using hsamples

/-- Past `2 ^ 32` the byte rate wraps, and the file written is refused when read: its block
alignment no longer holds a container per channel. -/
theorem encodeWav_unreadable_of_byteRate_wraps (spec : WavSpec)
    (hbits : spec.bitsPerSample = 8 ∨ spec.bitsPerSample = 16 ∨ spec.bitsPerSample = 24 ∨
      spec.bitsPerSample = 32)
    (hC : 0 < spec.channels) (hC' : spec.channels < 65536) (hrate : 0 < spec.sampleRate)
    (hrate' : spec.sampleRate < 4294967296)
    (hwrap : 4294967296 ≤ spec.sampleRate * (spec.bitsPerSample / 8) * spec.channels)
    (ss : List Sample) :
    ∃ bytes, encodeWav spec ss = .ok bytes ∧
      readWavLayout bytes = .error (.format "sample bits exceeds size of sample") := by
  have hcb : spec.containerBytes = spec.bitsPerSample / 8 := by
    unfold WavSpec.containerBytes
    omega
  have hrefused : readFmt (fmtBytes spec).length (fmtBytes spec ++
      (tagBytes "data" ++ Bytes.toLE 4 (ss.flatMap (sampleBytes spec.bitsPerSample)).length ++
        ss.flatMap (sampleBytes spec.bitsPerSample))) =
      .error (.format "sample bits exceeds size of sample") := by
    obtain ⟨tag, tail, htag, hfmt⟩ := fmtBytes_eq_common spec
    rw [hfmt, hcb]
    simp only [List.append_assoc]
    exact readFmt_of_byteRate_wraps (by simp only [List.length_append, Bytes.toLE_length]; omega)
      htag hC hC' hrate' hbits hwrap _
  obtain ⟨header, hh, hread⟩ := readWavLayout_of_readFmt_error hrate.ne' hrefused
  have hmem := mem_widths hbits
  refine ⟨header ++ ss.flatMap (sampleBytes spec.bitsPerSample), ?_, hread⟩
  simp only [encodeWav, hmem, not_true_eq_false, ↓reduceIte, bind, Except.bind, hh, pure,
    Except.pure]

/-! ## Libraries that keep their files -/

/-- A library keeps a file of a description and samples: it opens the description for writing,
and the bytes it writes for the samples read back as the description, the number of samples
and the samples themselves. -/
def WavCodec.Keeps (wav : WavCodec) (spec : WavSpec) (ss : List Sample) : Prop :=
  wav.create spec = .ok () ∧
    ∃ bytes, wav.finish spec ss = .ok bytes ∧ wav.read bytes = .ok ⟨spec, ss.length, .ok ss⟩

/-- The built-in library opens a description of 8, 16, 24 or 32 bits at a positive rate. -/
theorem WavCodec.builtin_create {spec : WavSpec} (hbits : spec.bitsPerSample ∈ [8, 16, 24, 32])
    (hrate : spec.sampleRate ≠ 0) : WavCodec.builtin.create spec = .ok () := by
  simp only [WavCodec.builtin, hbits, not_true_eq_false, ↓reduceIte, wavHeader_eq_ok hrate]
  rfl

/-- The built-in library keeps a file of samples that fit a writable description, in whole
frames and fewer than `2 ^ 32` bytes. -/
theorem WavCodec.builtin_keeps {spec : WavSpec} (hs : spec.Writable) {ss : List Sample}
    (hfit : ∀ s ∈ ss, s.Fits spec.bitsPerSample) (hframes : ss.length % spec.channels = 0)
    (hlen : ss.length * (spec.bitsPerSample / 8) < 2 ^ 32) : WavCodec.builtin.Keeps spec ss := by
  obtain ⟨bytes, henc, layout, hread, hspec, hnum, hsamples⟩ :=
    encodeWav_read_back hs hfit hframes hlen
  refine ⟨WavCodec.builtin_create (mem_widths hs.bits_mem) hs.rate_pos.ne', bytes, henc, ?_⟩
  simp [WavCodec.builtin, hread, hspec, hnum, hsamples, bind, Except.bind, pure, Except.pure]

end VoiceBench.Media
