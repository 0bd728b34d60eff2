import Mathlib
import VoiceBench.Proofs.Media.Quantize
import VoiceBench.Proofs.Files.ReadBack
import VoiceBench.Proofs.Media.Dumps

/-!
# Writing and reading back recordings

Recordings go through a library of WAV files, a parameter here. `writeRecording` interleaves the
channels of a recording frame by frame, each single turned into a sample by `sampleFor`
(`interleave_eq_ok`, `Recording.written`), and has the library write them under the
recording's description (`Recording.wavSpec`). `readRecording` has the library open a file and
de-interleaves its samples: of `count` channels, channel `c` holds the samples at
`t * count + c` over the whole frames (`readRecording_eq_ok_iff`, `getElem?_deinterleave`).

Of the library one thing is asked: that it keeps the file the recording is written as
(`WavCodec.Keeps`). For a recording of one to 65535 channels of one length at 8, 16, 24 or 32
bits (`Recording.Storable`), reading the file back then gives the rate and every sample as
`readBack` makes it (`readRecording_writeRecording`), the quantized value over the full scale at
8, 16 and 24 bits and the single itself at 32. The built-in library keeps every such file whose
header fields fit (`builtin_keeps_written`); past `2 ^ 32` its byte rate wraps, and the file it
writes is refused when read (`readRecording_writeRecording_of_byteRate_wraps`).

`truncateToCommon` cuts every recording to the least frame count among them, each channel to its
prefix of that length (`truncateToCommon_fst_le`, `truncateToCommon_fst_mem`,
`truncateToCommon_snd`).
-/

namespace VoiceBench.Media

open Binary WorkDir

variable {wav : WavCodec}

/-! ## Blocks of one length -/

section Lists

variable {α β ε : Type}

/-- In blocks of `n` entries each, entry `i * n + j` is entry `j` of block `i`. -/
theorem getElem?_flatMap_of_length_eq {xs : List α} {F : α → List β} {n : Nat}
    (h : ∀ a ∈ xs, (F a).length = n) {i j : Nat} (hi : i < xs.length) (hj : j < n) :
    (xs.flatMap F)[i * n + j]? = (F xs[i])[j]? := by
  induction xs generalizing i with
  | nil => simp at hi
  | cons a xs ih =>
    have ha := h a List.mem_cons_self
    rw [List.flatMap_cons]
    cases i with
    | zero =>
      rw [Nat.zero_mul, Nat.zero_add, List.getElem?_append_left (by omega)]
      rfl
    | succ i =>
      rw [Nat.succ_mul, List.getElem?_append_right (by omega), ha,
        show i * n + n + j - n = i * n + j by omega]
      exact ih (fun b hb => h b (List.mem_cons_of_mem a hb)) (by simpa using hi)

end Lists

/-! ## Interleaving -/

/-- The samples a recording is written as at `bits` bits: frame by frame, each channel's sample
in channel order. -/
def Recording.written (r : Recording) (bits : Nat) : List Sample :=
  (List.range r.numFrames).flatMap fun f => r.channels.map fun ch => sampleFor bits (ch.getD f 0)

/-- A recording whose channels all hold its frames interleaves into its written samples. -/
theorem interleave_eq_ok {r : Recording} (h : ∀ ch ∈ r.channels, r.numFrames ≤ ch.size)
    (bits : Nat) : interleave r bits = .ok (r.written bits) := by
  unfold interleave
  refine flatMapM_eq_ok fun f hf => ?_
  rw [mapM_eq_ok_iff, List.forall₂_map_right_iff, List.forall₂_same]
  intro ch hch
  have hlt : f < ch.size := lt_of_lt_of_le (List.mem_range.1 hf) (h ch hch)
  simp [hlt]

/-- A recording writes one sample per channel and frame. -/
theorem length_written (r : Recording) (bits : Nat) :
    (r.written bits).length = r.numFrames * r.channels.length := by
  rw [Recording.written, length_flatMap_of_length_eq (fun f _ => List.length_map _),
    List.length_range]

/-- Every sample written for a recording fits the width. -/
theorem fits_of_mem_written (r : Recording) {bits : Nat}
    (hb : bits = 8 ∨ bits = 16 ∨ bits = 24 ∨ bits = 32) : ∀ s ∈ r.written bits, s.Fits bits := by
  intro s hmem
  simp only [Recording.written, List.mem_flatMap, List.mem_map] at hmem
  obtain ⟨f, -, ch, -, rfl⟩ := hmem
  exact sampleFor_fits hb _

/-- Read over the full scale, the samples written are the channels' samples through
`readBack`. -/
theorem map_normalized_written (r : Recording) (bits : Nat) :
    (r.written bits).map (Sample.normalized (fullScale bits)) =
      (List.range r.numFrames).flatMap fun f =>
        r.channels.map fun ch => readBack bits (ch.getD f 0) := by
  simp only [Recording.written, List.map_flatMap, List.map_map]
  rfl

/-! ## De-interleaving -/

/-- Channel `c` of `count` interleaved channels: the samples at `t * count + c`, over the whole
frames. -/
def deinterleave (count : Nat) (samples : Array Float32) : List (Array Float32) :=
  (List.range count).map fun c =>
    (Array.range (samples.size / count)).map fun f => samples.getD (f * count + c) 0

theorem length_deinterleave (count : Nat) (samples : Array Float32) :
    (deinterleave count samples).length = count := by
  simp [deinterleave]

theorem size_of_mem_deinterleave {count : Nat} {samples : Array Float32} {ch : Array Float32}
    (h : ch ∈ deinterleave count samples) : ch.size = samples.size / count := by
  simp only [deinterleave, List.mem_map, List.mem_range] at h
  obtain ⟨c, -, rfl⟩ := h
  simp

/-- Sample `t` of channel `c` is interleaved sample `t * count + c`. -/
theorem getElem?_deinterleave {count : Nat} {samples : Array Float32} {c t : Nat}
    (hc : c < count) (ht : t < samples.size / count) :
    ((deinterleave count samples)[c]?).bind (·[t]?) = samples[t * count + c]? := by
  have hin : t * count + c < samples.size := by
    have hframe := (Nat.le_div_iff_mul_le (by omega)).1 (Nat.succ_le_of_lt ht)
    rw [Nat.succ_mul] at hframe
    omega
  simp [deinterleave, hc, ht, hin]

/-- De-interleaving undoes interleaving: channels of one length, interleaved frame by frame
through `g`, come apart into the channels through `g`. -/
theorem deinterleave_flatMap (g : Float32 → Float32) {channels : List (Array Float32)} {L : Nat}
    (hpos : 0 < channels.length) (hsize : ∀ ch ∈ channels, ch.size = L) :
    deinterleave channels.length ((List.range L).flatMap fun f =>
      channels.map fun ch => g (ch.getD f 0)).toArray = channels.map (·.map g) := by
  have hlen : ((List.range L).flatMap fun f => channels.map fun ch => g (ch.getD f 0)).length =
      L * channels.length := by
    rw [length_flatMap_of_length_eq (fun f _ => List.length_map _), List.length_range]
  apply List.ext_getElem
  · simp [length_deinterleave]
  · intro c h1 h2
    have hc : c < channels.length := by simpa [length_deinterleave] using h1
    have hch := hsize _ (List.getElem_mem hc)
    apply Array.ext
    · simp [deinterleave, hch, Nat.mul_div_cancel _ hpos]
    · intro t ht1 ht2
      have ht : t < L := by simpa [hch] using ht2
      have hget := getElem?_flatMap_of_length_eq
        (F := fun f => channels.map fun ch => g (ch.getD f 0)) (fun f _ => List.length_map _)
        (show t < (List.range L).length by simpa using ht) hc
      simp only [deinterleave, List.getElem_map, List.getElem_range, Array.getElem_map,
        Array.getElem_range]
      rw [Array.getD_eq_getD_getElem?, List.getElem?_toArray, hget]
      have ht' : t < channels[c].size := hch ▸ ht
      simp [hc, ht']

/-- A file is read into a recording exactly when it exists, the library opens it, it declares a
channel and its samples decode; the recording holds the de-interleaved samples, normalized. -/
theorem readRecording_eq_ok_iff {w : WorkDir} {path : String} {r : Recording} :
    readRecording wav w path = .ok r ↔ w.isFile path = true ∧ ∃ file ss,
      openWav wav w path = .ok file ∧ 0 < file.spec.channels ∧ file.samples = .ok ss ∧
      r = ⟨(PathName.fileStem? path).getD "", path, file.spec.sampleRate,
        deinterleave file.spec.channels
          (ss.map (Sample.normalized (fullScale file.spec.bitsPerSample))).toArray⟩ := by
  unfold readRecording
  by_cases hf : w.isFile path = true
  · cases hl : openWav wav w path with
    | error e => simp [hf, bind, Except.bind]
    | ok file =>
      by_cases hc : file.spec.channels = 0
      · simp [hf, hc, bind, Except.bind, throw, throwThe, MonadExceptOf.throw]
      · cases hs : file.samples with
        | error e => simp [hf, hc, hs, bind, Except.bind, throw, throwThe, MonadExceptOf.throw]
        | ok ss =>
          simp [hf, hc, hs, bind, Except.bind, pure, Except.pure, deinterleave,
            Nat.pos_of_ne_zero hc, eq_comm]
  · simp [hf, bind, Except.bind, throw, throwThe, MonadExceptOf.throw]

/-- Every recording read from a file has the file's rate and one channel per declared channel,
each of the whole frames of the samples; sample `t` of channel `c` is the interleaved sample
`t * count + c`, normalized. -/
theorem readRecording_channels {w : WorkDir} {path : String} {r : Recording}
    (h : readRecording wav w path = .ok r) :
    ∃ file ss, openWav wav w path = .ok file ∧ file.samples = .ok ss ∧
      r.sampleRate = file.spec.sampleRate ∧ r.channels.length = file.spec.channels ∧
      (∀ ch ∈ r.channels, ch.size = ss.length / file.spec.channels) ∧
      ∀ c t, c < file.spec.channels → t < ss.length / file.spec.channels →
        (r.channels[c]?).bind (·[t]?) = (ss[t * file.spec.channels + c]?).map
          (Sample.normalized (fullScale file.spec.bitsPerSample)) := by
  obtain ⟨-, file, ss, hl, -, hs, rfl⟩ := readRecording_eq_ok_iff.1 h
  refine ⟨file, ss, hl, hs, rfl, length_deinterleave _ _, fun ch hch => ?_, fun c t hc ht => ?_⟩
  · simpa using size_of_mem_deinterleave hch
  · rw [getElem?_deinterleave hc (by simpa using ht), List.getElem?_toArray, List.getElem?_map]

/-! ## The round trip -/

/-- A place for a file that is no directory takes any file. -/
theorem write_of_slot_of_not_isDir {w : WorkDir} {path : String} (hslot : w.FileSlot path)
    (hdir : w.isDir path = false) (b : List UInt8) : ∃ w', w.write path b = .ok w' := by
  obtain ⟨e, he⟩ := hslot
  have hdir' : w.isDirAt e = false := by simpa only [isDir, he] using hdir
  exact ⟨_, write_eq_ok_iff.2 ⟨⟨e, false⟩, he, rfl, hdir', rfl⟩⟩

/-- A file written with bytes the library reads is opened as what the library reads. -/
theorem openWav_of_write {w w' : WorkDir} {path : String} {bytes : List UInt8} {file : WavFile}
    (hwrite : w.write path bytes = .ok w') (hread : wav.read bytes = .ok file) :
    openWav wav w' path = .ok file := by
  simp only [openWav, read_of_write hwrite, hread]

/-- Writing succeeds when the library opens the description, the channels interleave, the
library writes the samples and the file is put in place. -/
theorem writeRecording_of_finish {w w' : WorkDir} {path : String} {r : Recording} {bits : Nat}
    {ss : List Sample} {bytes : List UInt8} (hcreate : wav.create (r.wavSpec bits) = .ok ())
    (hinter : interleave r bits = .ok ss) (hfinish : wav.finish (r.wavSpec bits) ss = .ok bytes)
    (hwrite : w.write path bytes = .ok w') : writeRecording wav w path r bits = .ok w' := by
  simp only [writeRecording, bind, Except.bind, hcreate, hinter, hfinish, hwrite, pure,
    Except.pure]

/-- A recording a file of `bits` bits per sample can hold: 8, 16, 24 or 32 bits, one to 65535
channels, and every channel as long as the first. -/
structure Recording.Storable (r : Recording) (bits : Nat) : Prop where
  bits_mem : bits = 8 ∨ bits = 16 ∨ bits = 24 ∨ bits = 32
  channels_pos : 0 < r.channels.length
  channels_lt : r.channels.length < 2 ^ 16
  size_eq : ∀ ch ∈ r.channels, ch.size = r.numFrames

/-- The description a recording is written as declares its channels, when there are fewer than
`2 ^ 16`. -/
theorem channels_wavSpec {r : Recording} (h : r.channels.length < 2 ^ 16) (bits : Nat) :
    (r.wavSpec bits).channels = r.channels.length :=
  Nat.mod_eq_of_lt h

/-- When the library keeps the file a recording is written as, the recording is written in a
free place, and reading the file gives its rate and its channels, every sample as `readBack`
makes it. -/
theorem readRecording_writeRecording {w : WorkDir} {path : String} {r : Recording} {bits : Nat}
    (hr : r.Storable bits) (hkeep : wav.Keeps (r.wavSpec bits) (r.written bits))
    (hslot : w.FileSlot path) (hdir : w.isDir path = false) :
    ∃ w', writeRecording wav w path r bits = .ok w' ∧
      readRecording wav w' path = .ok ⟨(PathName.fileStem? path).getD "", path, r.sampleRate,
        r.channels.map (·.map (readBack bits))⟩ := by
  obtain ⟨hcreate, bytes, hfinish, hread⟩ := hkeep
  obtain ⟨w', hwrite⟩ := write_of_slot_of_not_isDir hslot hdir bytes
  refine ⟨w', writeRecording_of_finish hcreate
    (interleave_eq_ok (fun ch hch => (hr.size_eq ch hch).ge) bits) hfinish hwrite, ?_⟩
  have hcount := channels_wavSpec hr.channels_lt bits
  have hchannels : 0 < (r.wavSpec bits).channels := hcount ▸ hr.channels_pos
  refine readRecording_eq_ok_iff.2 ⟨isFile_of_write hwrite, _, _, openWav_of_write hwrite hread,
    hchannels, rfl, ?_⟩
  show _ = (⟨_, _, r.sampleRate, deinterleave (r.wavSpec bits).channels
    ((r.written bits).map (Sample.normalized (fullScale bits))).toArray⟩ : Recording)
  rw [hcount, map_normalized_written, deinterleave_flatMap _ hr.channels_pos hr.size_eq]

/-- At 8, 16 and 24 bits every sample of a recording whose file the library keeps reads back as
its quantized value over the full scale, channel by channel and frame by frame. -/
theorem readRecording_writeRecording_quantized {w : WorkDir} {path : String} {r : Recording}
    {bits : Nat} (hr : r.Storable bits) (hb : bits = 8 ∨ bits = 16 ∨ bits = 24)
    (hkeep : wav.Keeps (r.wavSpec bits) (r.written bits)) (hslot : w.FileSlot path)
    (hdir : w.isDir path = false) :
    ∃ w', writeRecording wav w path r bits = .ok w' ∧ ∃ r', readRecording wav w' path = .ok r' ∧
      r'.sampleRate = r.sampleRate ∧
      List.Forall₂ (fun ch ch' => ch'.size = ch.size ∧ ∀ t (ht : t < ch.size) (ht' : t < ch'.size),
        HasValue ch'[t] (quantize (bits - 1) ch[t].toModel.unpack / 2 ^ (bits - 1)))
        r.channels r'.channels := by
  obtain ⟨w', hw, hread⟩ := readRecording_writeRecording hr hkeep hslot hdir
  refine ⟨w', hw, _, hread, rfl, ?_⟩
  rw [List.forall₂_map_right_iff]
  refine List.forall₂_same.2 fun ch _ => ⟨Array.size_map .., fun t ht ht' => ?_⟩
  rw [Array.getElem_map]
  exact hasValue_readBack hb ch[t]

/-- At 32 bits every sample of a recording whose file the library keeps reads back bit for
bit. -/
theorem readRecording_writeRecording_float {w : WorkDir} {path : String} {r : Recording}
    (hr : r.Storable 32) (hkeep : wav.Keeps (r.wavSpec 32) (r.written 32))
    (hslot : w.FileSlot path) (hdir : w.isDir path = false) :
    ∃ w', writeRecording wav w path r 32 = .ok w' ∧ ∃ r', readRecording wav w' path = .ok r' ∧
      r'.sampleRate = r.sampleRate ∧ r'.channels = r.channels := by
  obtain ⟨w', hw, hread⟩ := readRecording_writeRecording hr hkeep hslot hdir
  refine ⟨w', hw, _, hread, rfl, ?_⟩
  have hid : readBack 32 = id := funext readBack_float
  simp [hid]

/-! ## The built-in library -/

/-- The built-in library keeps the file of a recording whose header fields fit: a positive rate,
and a block alignment, byte rate and data length within their 16- and 32-bit fields. -/
theorem builtin_keeps_written {r : Recording} {bits : Nat} (hr : r.Storable bits)
    (hrate : 0 < r.sampleRate) (hblock : r.channels.length * (bits / 8) < 2 ^ 16)
    (hbyteRate : r.sampleRate * (bits / 8) * r.channels.length < 2 ^ 32)
    (hdata : r.numFrames * r.channels.length * (bits / 8) < 2 ^ 32) :
    WavCodec.builtin.Keeps (r.wavSpec bits) (r.written bits) := by
  have hcount := channels_wavSpec hr.channels_lt bits
  have hs : (r.wavSpec bits).Writable :=
    ⟨hr.bits_mem, rfl, hcount ▸ hr.channels_pos, hcount ▸ hblock, hrate, hcount ▸ hbyteRate⟩
  refine WavCodec.builtin_keeps hs (fits_of_mem_written r hr.bits_mem) ?_ ?_
  · rw [length_written, hcount]
    exact Nat.mul_mod_left _ _
  · rw [length_written]
    exact hdata

/-- Past `2 ^ 32` the built-in library's byte rate wraps: the recording is written, but the
file is refused when read back. -/
theorem readRecording_writeRecording_of_byteRate_wraps {w : WorkDir} {path : String}
    {r : Recording} {bits : Nat} (hr : r.Storable bits) (hrate : 0 < r.sampleRate)
    (hrate' : r.sampleRate < 2 ^ 32) (hwrap : 2 ^ 32 ≤ r.sampleRate * (bits / 8) * r.channels.length)
    (hslot : w.FileSlot path) (hdir : w.isDir path = false) :
    ∃ w', writeRecording WavCodec.builtin w path r bits = .ok w' ∧
      readRecording WavCodec.builtin w' path =
        .error (.wav (.format "sample bits exceeds size of sample")) := by
  have hcount := channels_wavSpec hr.channels_lt bits
  obtain ⟨bytes, henc, hread⟩ := encodeWav_unreadable_of_byteRate_wraps (r.wavSpec bits)
    hr.bits_mem (hcount ▸ hr.channels_pos) (hcount ▸ hr.channels_lt) hrate hrate'
    (hcount ▸ hwrap) (r.written bits)
  obtain ⟨w', hwrite⟩ := write_of_slot_of_not_isDir hslot hdir bytes
  refine ⟨w', writeRecording_of_finish (WavCodec.builtin_create (mem_widths hr.bits_mem) hrate.ne')
    (interleave_eq_ok (fun ch hch => (hr.size_eq ch hch).ge) bits) henc hwrite, ?_⟩
  simp [readRecording, openWav, isFile_of_write hwrite, read_of_write hwrite, WavCodec.builtin,
    hread, bind, Except.bind]

/-! ## Cutting to a common length -/

section Truncate

variable {recs : List Recording}

/-- With no recordings the common length is zero. -/
theorem truncateToCommon_nil : (truncateToCommon []).1 = 0 := rfl

/-- The common length is at most the frame count of every recording. -/
theorem truncateToCommon_fst_le {r : Recording} (hr : r ∈ recs) :
    (truncateToCommon recs).1 ≤ r.numFrames := by
  obtain ⟨m, hm⟩ : ∃ m, (recs.map Recording.numFrames).min? = some m :=
    Option.ne_none_iff_exists'.1 (by simpa using List.ne_nil_of_mem hr)
  simp only [truncateToCommon, hm, Option.getD_some]
  exact (List.min?_eq_some_iff.1 hm).2 _ (List.mem_map_of_mem hr)

/-- The common length is the frame count of one of the recordings, when there are any. -/
theorem truncateToCommon_fst_mem (h : recs ≠ []) :
    ∃ r ∈ recs, r.numFrames = (truncateToCommon recs).1 := by
  obtain ⟨m, hm⟩ : ∃ m, (recs.map Recording.numFrames).min? = some m :=
    Option.ne_none_iff_exists'.1 (by simpa using h)
  simp only [truncateToCommon, hm, Option.getD_some]
  simpa using List.min?_mem hm

/-- Cutting keeps every recording's name, path and rate and cuts each channel to its prefix of
the common length. -/
theorem truncateToCommon_snd (recs : List Recording) :
    List.Forall₂ (fun r r' => r'.name = r.name ∧ r'.path = r.path ∧
      r'.sampleRate = r.sampleRate ∧ List.Forall₂ (fun ch ch' =>
        ch'.toList = ch.toList.take (truncateToCommon recs).1) r.channels r'.channels)
      recs (truncateToCommon recs).2 := by
  simp only [truncateToCommon, List.forall₂_map_right_iff, Recording.truncate,
    Array.toList_extract, List.extract_eq_take_drop, List.drop_zero, Nat.sub_zero]
  exact List.forall₂_same.2 fun r _ => ⟨rfl, rfl, rfl, List.forall₂_same.2 fun ch _ => rfl⟩

/-- When every channel of a recording has its frame count, every channel cut holds the common
length exactly. -/
theorem size_truncateToCommon (heq : ∀ r ∈ recs, ∀ ch ∈ r.channels, ch.size = r.numFrames) :
    ∀ r' ∈ (truncateToCommon recs).2, ∀ ch' ∈ r'.channels, ch'.size = (truncateToCommon recs).1 := by
  intro r' hr' ch' hch'
  obtain ⟨r, hr, rfl⟩ := List.mem_map.1 hr'
  obtain ⟨ch, hch, rfl⟩ := List.mem_map.1 hch'
  have hle := truncateToCommon_fst_le hr
  simp only [Array.size_extract, heq r hr ch hch, Nat.sub_zero]
  exact Nat.min_eq_left hle

end Truncate

/-! ## Recordings through a file -/

/-- Recordings through a file. Through a library that keeps the file a recording is written as,
a recording of one to 65535 channels of one length, written at 8, 16 or 24 bits, reads back with
its rate and its channels, every sample the quantized value over the full scale; at 32 bits it
reads back bit for bit. Every recording read has one channel per declared channel, each of the
whole frames, sample `t` of channel `c` the interleaved sample `t * count + c`. Cutting
recordings to their common length takes the least frame count, zero for none, and cuts every
channel to its prefix of that length. -/
theorem recordings_written_read_and_cut (wav : WavCodec) :
    (∀ (w : WorkDir) (path : String) (r : Recording) (bits : Nat), r.Storable bits →
      (bits = 8 ∨ bits = 16 ∨ bits = 24) → wav.Keeps (r.wavSpec bits) (r.written bits) →
      w.FileSlot path → w.isDir path = false →
      ∃ w', writeRecording wav w path r bits = .ok w' ∧ ∃ r', readRecording wav w' path = .ok r' ∧
        r'.sampleRate = r.sampleRate ∧
        List.Forall₂ (fun ch ch' => ch'.size = ch.size ∧
          ∀ t (ht : t < ch.size) (ht' : t < ch'.size),
            HasValue ch'[t] (quantize (bits - 1) ch[t].toModel.unpack / 2 ^ (bits - 1)))
          r.channels r'.channels) ∧
    (∀ (w : WorkDir) (path : String) (r : Recording), r.Storable 32 →
      wav.Keeps (r.wavSpec 32) (r.written 32) → w.FileSlot path → w.isDir path = false →
      ∃ w', writeRecording wav w path r 32 = .ok w' ∧ ∃ r', readRecording wav w' path = .ok r' ∧
        r'.sampleRate = r.sampleRate ∧ r'.channels = r.channels) ∧
    (∀ (w : WorkDir) (path : String) (r : Recording), readRecording wav w path = .ok r →
      ∃ file ss, openWav wav w path = .ok file ∧ file.samples = .ok ss ∧
        r.sampleRate = file.spec.sampleRate ∧ r.channels.length = file.spec.channels ∧
        (∀ ch ∈ r.channels, ch.size = ss.length / file.spec.channels) ∧
        ∀ c t, c < file.spec.channels → t < ss.length / file.spec.channels →
          (r.channels[c]?).bind (·[t]?) = (ss[t * file.spec.channels + c]?).map
            (Sample.normalized (fullScale file.spec.bitsPerSample))) ∧
    (∀ recs : List Recording,
      (recs = [] → (truncateToCommon recs).1 = 0) ∧
      (∀ r ∈ recs, (truncateToCommon recs).1 ≤ r.numFrames) ∧
      (recs ≠ [] → ∃ r ∈ recs, r.numFrames = (truncateToCommon recs).1) ∧
      List.Forall₂ (fun r r' => r'.name = r.name ∧ r'.path = r.path ∧
        r'.sampleRate = r.sampleRate ∧ List.Forall₂ (fun ch ch' =>
          ch'.toList = ch.toList.take (truncateToCommon recs).1) r.channels r'.channels)
        recs (truncateToCommon recs).2 ∧
      ((∀ r ∈ recs, ∀ ch ∈ r.channels, ch.size = r.numFrames) →
        ∀ r' ∈ (truncateToCommon recs).2, ∀ ch' ∈ r'.channels,
          ch'.size = (truncateToCommon recs).1)) :=
  ⟨fun _ _ _ _ hr hb hkeep hslot hdir =>
      readRecording_writeRecording_quantized hr hb hkeep hslot hdir,
    fun _ _ _ hr hkeep hslot hdir => readRecording_writeRecording_float hr hkeep hslot hdir,
    fun _ _ _ h => readRecording_channels h,
    fun recs => ⟨fun h => h ▸ truncateToCommon_nil, fun _ hr => truncateToCommon_fst_le hr,
      truncateToCommon_fst_mem, truncateToCommon_snd recs, size_truncateToCommon⟩⟩

/-- A stereo recording of two frames at 16 kHz, written at 16 bits in an empty directory through
the built-in library, which keeps its file: it reads back with its rate and its samples
quantized. -/
theorem stereo_recording_written_read_and_cut :
    (⟨"rec", "out.wav", 16000, [#[0.5, -0.25], #[1, -1]]⟩ : Recording).Storable 16 ∧
    WavCodec.builtin.Keeps
      ((⟨"rec", "out.wav", 16000, [#[0.5, -0.25], #[1, -1]]⟩ : Recording).wavSpec 16)
      ((⟨"rec", "out.wav", 16000, [#[0.5, -0.25], #[1, -1]]⟩ : Recording).written 16) ∧
    (∃ w', writeRecording WavCodec.builtin {} "out.wav"
        ⟨"rec", "out.wav", 16000, [#[0.5, -0.25], #[1, -1]]⟩ 16 = .ok w' ∧
      ∃ r', readRecording WavCodec.builtin w' "out.wav" = .ok r' ∧ r'.sampleRate = 16000 ∧
      List.Forall₂ (fun ch ch' => ch'.size = ch.size ∧
        ∀ t (ht : t < ch.size) (ht' : t < ch'.size),
          HasValue ch'[t] (quantize 15 ch[t].toModel.unpack / 2 ^ 15))
        ([#[0.5, -0.25], #[1, -1]] : List (Array Float32)) r'.channels) := by
  have hstore : (⟨"rec", "out.wav", 16000, [#[0.5, -0.25], #[1, -1]]⟩ : Recording).Storable 16 :=
    ⟨by decide, by decide, by decide, by simp [Recording.numFrames]⟩
  have hkeep := builtin_keeps_written hstore (by decide) (by decide) (by decide) (by decide)
  have hname : IsName "out.wav" := by decide
  exact ⟨hstore, hkeep, (recordings_written_read_and_cut WavCodec.builtin).1 {} "out.wav" _ 16
    hstore (by decide) hkeep ⟨"out.wav", resolve_name _ hname⟩
    (by simp [isDir, resolve_name _ hname, isDirAt])⟩

end VoiceBench.Media
