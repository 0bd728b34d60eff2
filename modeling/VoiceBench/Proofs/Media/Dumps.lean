import Mathlib
import VoiceBench.Config.Basic
import VoiceBench.Media.AecFilter
import VoiceBench.Proofs.Media.Reshape

/-!
# Dump files and filter sets

A dump is a headerless run of four-byte little-endian words, each the encoding of a single.
This module proves the codec a bijection between byte strings of a length divisible by four and
sequences of encodings, and says exactly what reading a set of echo-canceller filters returns.

* Writing a dump and reading it back gives the encodings written, bit for bit; an existing file
  is read exactly when its length is a multiple of four, into a quarter as many values, and
  writing those values reproduces the file (`dump_codec_bit_exact`). The step back from bytes
  is `dumpBytes_dumpValues`: bytes of a whole number of words are the words glued together.
* The pairs of a set in reference-major order are the quotient and remainder of their position
  by the number of microphones (`filterPairs_eq_map_range`).

Main statement: `readAecFilters_whole_or_nothing`. A missing dump is reported before any dump
is read, and it is the first missing one in reference-major order; when none is missing, the
set is read whole, one filter per pair in order, or the failure of the first dump that is
malformed or empty is reported: the set is read by a traversal, which succeeds
exactly when every element does and otherwise fails with the first failure
(`mapM_eq_ok_iff_getElem`, `mapM_eq_error_iff`).
-/

namespace VoiceBench.WorkDir

/-- A read succeeds exactly when the path resolves to an entry that is no directory, holds the
bytes, and is not asked for as a directory. -/
theorem read_eq_ok_iff {w : WorkDir} {p : String} {b : List UInt8} :
    w.read p = .ok b ↔ ∃ t, w.resolve p = .ok t ∧ w.isDirAt t.entry = false ∧
      w.lookup t.entry = some b ∧ t.dirOnly = false := by
  unfold read
  cases hr : w.resolve p with
  | error e => simp [bind, Except.bind]
  | ok t =>
    cases hd : w.isDirAt t.entry <;> cases hl : w.lookup t.entry <;> cases ht : t.dirOnly <;>
      simp [bind, Except.bind, pure, Except.pure, throw, throwThe, MonadExceptOf.throw, hd, hl, ht]

/-- A path that can be read names a file. -/
theorem isFile_of_read {w : WorkDir} {p : String} {b : List UInt8} (h : w.read p = .ok b) :
    w.isFile p = true := by
  obtain ⟨t, ht, -, hl, hslash⟩ := read_eq_ok_iff.1 h
  simp [isFile, ht, hl, hslash]

/-- The empty directory holds no file. -/
theorem isFile_empty (p : String) : ({} : WorkDir).isFile p = false := by
  unfold isFile
  split <;> simp [lookup]

/-- A file that can be read can be written over, with the new bytes at the same entry. -/
theorem write_of_read {w : WorkDir} {p : String} {b : List UInt8} (h : w.read p = .ok b)
    (b' : List UInt8) : ∃ w', w.write p b' = .ok w' := by
  obtain ⟨t, ht, hdir, -, hslash⟩ := read_eq_ok_iff.1 h
  exact ⟨_, write_eq_ok_iff.2 ⟨t, ht, hslash, hdir, rfl⟩⟩

end VoiceBench.WorkDir

namespace VoiceBench.Media

/-! ## The codec -/

/-- Bytes of a whole number of words are the dump of the words they hold. -/
theorem dumpBytes_dumpValues {bytes : List UInt8} (h : bytes.length % 4 = 0) :
    dumpBytes (dumpValues bytes) = bytes := by
  obtain ⟨bs, hflat, -, hall⟩ :=
    Bytes.exists_chunked (by decide : 0 < 4) (bytes.length / 4) bytes (by omega)
  have hchunks : Bytes.chunks 4 bytes = bs := hflat ▸ Bytes.chunks_flatten (by decide) bs hall
  have hwords : (bs.map fun c => Bytes.toLE 4 (UInt32.ofNat (Bytes.ofLE c)).toNat) = bs := by
    rw [List.map_congr_left (fun c hc => Control.toLE_word (hall c hc))]
    simp
  rw [dumpBytes, dumpValues, hchunks]
  simp only [List.flatMap_def, List.map_map, Function.comp_def]
  rw [hwords, hflat]

/-- Reading an existing file as a dump: its bytes are the values when their count is a whole
number of words, and otherwise the size is refused. -/
theorem readDump_of_read {w : WorkDir} {path : String} {bytes : List UInt8}
    (h : w.read path = .ok bytes) :
    readDump w path = if bytes.length % 4 = 0 then .ok (dumpValues bytes)
      else .error (.invalidInput path s!"size {bytes.length} is not a multiple of 4 bytes") := by
  by_cases hlen : bytes.length % 4 = 0 <;>
    simp [readDump, WorkDir.isFile_of_read h, h, hlen]

/-- The dump codec is bit exact both ways. A dump written reads back as the encodings written,
NaN payloads, negative zeros and subnormals alike. An existing file is read exactly when its
length is a multiple of four, into a quarter as many values; their dump is the file, and
writing them over it reproduces it. -/
theorem dump_codec_bit_exact :
    (∀ (w w' : WorkDir) (path : String) (v : Array UInt32),
      writeDump w path v = .ok w' → readDump w' path = .ok v) ∧
    (∀ (w : WorkDir) (path : String) (bytes : List UInt8), w.read path = .ok bytes →
      ((∃ v, readDump w path = .ok v) ↔ bytes.length % 4 = 0) ∧
      ∀ v, readDump w path = .ok v → v.size = bytes.length / 4 ∧ dumpBytes v = bytes ∧
        ∃ w', writeDump w path v = .ok w' ∧ w'.read path = .ok bytes) := by
  refine ⟨fun w w' path v h => readDump_of_writeDump h, fun w path bytes h => ?_⟩
  rw [readDump_of_read h]
  refine ⟨by by_cases hlen : bytes.length % 4 = 0 <;> simp [hlen], fun v hv => ?_⟩
  by_cases hlen : bytes.length % 4 = 0
  · rw [if_pos hlen, Except.ok.injEq] at hv
    subst hv
    have hbytes := dumpBytes_dumpValues hlen
    have hsize := length_dumpBytes (dumpValues bytes)
    rw [hbytes] at hsize
    obtain ⟨w', hw⟩ := WorkDir.write_of_read h (dumpBytes (dumpValues bytes))
    refine ⟨by omega, hbytes, w', by simp [writeDump, hw], ?_⟩
    rw [← hbytes]
    exact WorkDir.read_of_write hw
  · rw [if_neg hlen] at hv
    cases hv

/-- A NaN with a payload, a negative zero and the least subnormal, written as a dump into an
empty directory, read back as those encodings. -/
theorem nan_payload_dump_reads_back :
    writeDump {} "buf.bin" #[0x7fc00001, 0x80000000, 0x00000001] =
        .ok (({} : WorkDir).put "buf.bin" (dumpBytes #[0x7fc00001, 0x80000000, 0x00000001])) ∧
      readDump (({} : WorkDir).put "buf.bin" (dumpBytes #[0x7fc00001, 0x80000000, 0x00000001]))
        "buf.bin" = .ok #[0x7fc00001, 0x80000000, 0x00000001] := by
  have hname : WorkDir.IsName "buf.bin" := by decide
  have hw : writeDump {} "buf.bin" #[0x7fc00001, 0x80000000, 0x00000001] =
      .ok (({} : WorkDir).put "buf.bin" (dumpBytes #[0x7fc00001, 0x80000000, 0x00000001])) := by
    rw [writeDump, WorkDir.write_name _ hname, if_neg (by decide)]
  exact ⟨hw, dump_codec_bit_exact.1 _ _ _ _ hw⟩

/-! ## The pairs of a set -/

/-- The pairs of a set in reference-major order: the pair at position `k` is the quotient and
the remainder of `k` by the number of microphones. -/
theorem filterPairs_eq_map_range (numRef numMics : Nat) :
    filterPairs numRef numMics =
      (List.range (numRef * numMics)).map fun k => (k / numMics, k % numMics) := by
  induction numRef with
  | zero => simp [filterPairs]
  | succ r ih =>
    have hlast : ((List.range numMics).map fun m => (r * numMics + m)).map
        (fun k => (k / numMics, k % numMics)) = (List.range numMics).map fun m => (r, m) := by
      rw [List.map_map]
      refine List.map_congr_left fun m hm => ?_
      have hm : m < numMics := List.mem_range.1 hm
      have hdiv : (r * numMics + m) / numMics = r := by
        rw [Nat.add_comm, Nat.add_mul_div_right _ _ (by omega), Nat.div_eq_of_lt hm, Nat.zero_add]
      simp [hdiv, Nat.mod_eq_of_lt hm]
    unfold filterPairs at ih ⊢
    rw [List.range_succ, List.flatMap_append, ih, Nat.succ_mul, List.range_add, List.map_append,
      hlast]
    simp

@[simp] theorem length_filterPairs (numRef numMics : Nat) :
    (filterPairs numRef numMics).length = numRef * numMics := by
  simp [filterPairs_eq_map_range]

theorem getElem_filterPairs {numRef numMics k : Nat} (hk : k < (filterPairs numRef numMics).length) :
    (filterPairs numRef numMics)[k] = (k / numMics, k % numMics) := by
  simp [filterPairs_eq_map_range]

/-- A position before `r * size + m`, read as a pair of quotient and remainder, comes before
`(r, m)` in reference-major order. -/
theorem lex_lt_of_index_lt {size q s r m : Nat} (hm : m < size)
    (h : q * size + s < r * size + m) :
    q < r ∨ q = r ∧ s < m := by
  rcases Nat.lt_trichotomy q r with hlt | rfl | hgt
  · exact .inl hlt
  · exact .inr ⟨rfl, by omega⟩
  · have : (r + 1) * size ≤ q * size := Nat.mul_le_mul_right size hgt
    rw [Nat.succ_mul] at this
    omega

/-! ## Reading one filter -/

section
variable {w : WorkDir} {pathOf : Nat → Nat → String} {r m : Nat}

/-- A filter is read when its dump is read and holds a value: the filter of the pair, its
path, and the dump's values as singles. -/
theorem readAecFilter_eq_ok_iff {f : AecFilter} :
    readAecFilter w pathOf (r, m) = .ok f ↔ ∃ v, readDump w (pathOf r m) = .ok v ∧
      v.size ≠ 0 ∧ f = ⟨r, m, pathOf r m, v.map Float32.ofBits⟩ := by
  unfold readAecFilter
  dsimp only
  cases h : readDump w (pathOf r m) with
  | error e => simp [bind, Except.bind]
  | ok v =>
    by_cases hv : v = #[]
    · subst hv
      simp [bind, Except.bind, throw, throwThe, MonadExceptOf.throw]
    · have he : v.isEmpty = false := Array.isEmpty_eq_false_iff.2 hv
      simp only [bind, Except.bind, pure, Except.pure, he, Bool.false_eq_true, if_false,
        Except.ok.injEq]
      constructor
      · intro hf
        exact ⟨v, rfl, fun h0 => hv (Array.size_eq_zero_iff.1 h0), hf.symm⟩
      · rintro ⟨v', hv', -, hf⟩
        cases hv'
        exact hf.symm

/-- Some filter is read exactly when the dump is read and holds a value. -/
theorem exists_readAecFilter_eq_ok :
    (∃ f, readAecFilter w pathOf (r, m) = .ok f) ↔
      ∃ v, readDump w (pathOf r m) = .ok v ∧ v.size ≠ 0 := by
  simp only [readAecFilter_eq_ok_iff]
  constructor
  · rintro ⟨-, v, hv, hne, -⟩
    exact ⟨v, hv, hne⟩
  · rintro ⟨v, hv, hne⟩
    exact ⟨_, v, hv, hne, rfl⟩

/-- A filter is refused with the failure of its dump, or because the dump holds no value. -/
theorem readAecFilter_eq_error_iff {e : Error} :
    readAecFilter w pathOf (r, m) = .error e ↔ readDump w (pathOf r m) = .error e ∨
      readDump w (pathOf r m) = .ok #[] ∧ e = .invalidInput (pathOf r m) "filter dump is empty" := by
  unfold readAecFilter
  dsimp only
  cases h : readDump w (pathOf r m) with
  | error e' => simp [bind, Except.bind]
  | ok v =>
    by_cases hv : v = #[]
    · subst hv
      simp [bind, Except.bind, throw, throwThe, MonadExceptOf.throw, eq_comm]
    · simp [bind, Except.bind, pure, Except.pure, hv]

end

/-! ## Reading a set -/

section
variable {w : WorkDir} {pathOf : Nat → Nat → String} {numRef numMics : Nat}

/-- When the dump of a pair is missing and every pair before it in reference-major order has
one, the set is refused naming that dump, before any dump is read. -/
theorem readAecFilters_of_first_missing {r m : Nat} (hr : r < numRef) (hm : m < numMics)
    (hmiss : w.isFile (pathOf r m) = false)
    (hbefore : ∀ r' m', m' < numMics → (r' < r ∨ r' = r ∧ m' < m) → w.isFile (pathOf r' m') = true) :
    readAecFilters w pathOf numRef numMics = .error (.missingFile (pathOf r m)) := by
  have hidx : r * numMics + m < (filterPairs numRef numMics).length := by
    have : (r + 1) * numMics ≤ numRef * numMics := Nat.mul_le_mul_right numMics hr
    rw [Nat.succ_mul] at this
    simp only [length_filterPairs]
    omega
  have hpair : (filterPairs numRef numMics)[r * numMics + m] = (r, m) := by
    rw [getElem_filterPairs]
    have hdiv : (r * numMics + m) / numMics = r := by
      rw [Nat.add_comm, Nat.add_mul_div_right _ _ (by omega), Nat.div_eq_of_lt hm, Nat.zero_add]
    simp [hdiv, Nat.mod_eq_of_lt hm]
  have hfind : (filterPairs numRef numMics).find? (dumpMissing w pathOf) = some (r, m) := by
    rw [List.find?_eq_some_iff_getElem]
    refine ⟨by simp [dumpMissing, hmiss], r * numMics + m, hidx, hpair, fun j hj => ?_⟩
    rw [getElem_filterPairs]
    have hs : j % numMics < numMics := Nat.mod_lt _ (by omega)
    have hlex := lex_lt_of_index_lt hm
      (show j / numMics * numMics + j % numMics < r * numMics + m by rw [Nat.div_add_mod']; omega)
    simp [dumpMissing, hbefore _ _ hs hlex]
  simp [readAecFilters, hfind, bind, Except.bind, throw, throwThe, MonadExceptOf.throw]

/-- When every pair has its dump, reading the set reads the pairs' filters in order. -/
theorem readAecFilters_of_all_files
    (hall : ∀ r < numRef, ∀ m < numMics, w.isFile (pathOf r m) = true) :
    readAecFilters w pathOf numRef numMics =
      (filterPairs numRef numMics).mapM (readAecFilter w pathOf) := by
  have hfind : (filterPairs numRef numMics).find? (dumpMissing w pathOf) = none := by
    rw [List.find?_eq_none]
    rintro ⟨r, m⟩ hmem
    simp only [filterPairs, List.mem_flatMap, List.mem_range, List.mem_map, Prod.mk.injEq] at hmem
    obtain ⟨r', hr', m', hm', rfl, rfl⟩ := hmem
    simp [dumpMissing, hall r' hr' m' hm']
  simp [readAecFilters, hfind]

end

/-- A set of echo-canceller filters is read whole or not at all. If some pair's dump is
missing, the set is refused naming the first missing one in reference-major order, whatever
the other dumps hold. Otherwise the set is one filter per pair in reference-major order, the
`k`-th for the pair `(k / numMics, k % numMics)`, each holding its own dump's values, unless
some dump is malformed or empty; then the failure of the first such dump is reported. -/
theorem readAecFilters_whole_or_nothing (w : WorkDir) (f : Config.FileConfig) (base : String)
    (numRef numMics : Nat) :
    (∀ r m, r < numRef → m < numMics → w.isFile (f.aecFilterPath base r m) = false →
      (∀ r' m', m' < numMics → (r' < r ∨ r' = r ∧ m' < m) →
        w.isFile (f.aecFilterPath base r' m') = true) →
      readAecFilters w (f.aecFilterPath base) numRef numMics =
        .error (.missingFile (f.aecFilterPath base r m))) ∧
    ((∀ r < numRef, ∀ m < numMics, w.isFile (f.aecFilterPath base r m) = true) →
      (∀ fs, readAecFilters w (f.aecFilterPath base) numRef numMics = .ok fs ↔
        fs.length = numRef * numMics ∧ ∀ k (hk : k < fs.length), ∃ v,
          readDump w (f.aecFilterPath base (k / numMics) (k % numMics)) = .ok v ∧ v.size ≠ 0 ∧
          fs[k] = ⟨k / numMics, k % numMics, f.aecFilterPath base (k / numMics) (k % numMics),
            v.map Float32.ofBits⟩) ∧
      (∀ e, readAecFilters w (f.aecFilterPath base) numRef numMics = .error e ↔
        ∃ k < numRef * numMics,
          (∀ j < k, ∃ v, readDump w (f.aecFilterPath base (j / numMics) (j % numMics)) = .ok v ∧
            v.size ≠ 0) ∧
          (readDump w (f.aecFilterPath base (k / numMics) (k % numMics)) = .error e ∨
            readDump w (f.aecFilterPath base (k / numMics) (k % numMics)) = .ok #[] ∧
              e = .invalidInput (f.aecFilterPath base (k / numMics) (k % numMics))
                "filter dump is empty"))) := by
  refine ⟨fun r m hr hm hmiss hbefore => readAecFilters_of_first_missing hr hm hmiss hbefore,
    fun hall => ?_⟩
  rw [readAecFilters_of_all_files hall]
  refine ⟨fun fs => ?_, fun e => ?_⟩
  · have hpairs := length_filterPairs numRef numMics
    rw [mapM_eq_ok_iff_getElem]
    constructor
    · rintro ⟨hlen, hk⟩
      refine ⟨by omega, fun k hk' => ?_⟩
      have hpair := hk k (by omega) hk'
      rw [getElem_filterPairs] at hpair
      exact readAecFilter_eq_ok_iff.1 hpair
    · rintro ⟨hlen, hk⟩
      refine ⟨by omega, fun k _ hk' => ?_⟩
      rw [getElem_filterPairs]
      exact readAecFilter_eq_ok_iff.2 (hk k hk')
  · rw [mapM_eq_error_iff]
    constructor
    · rintro ⟨k, hk, hbefore, hfail⟩
      rw [getElem_filterPairs] at hfail
      refine ⟨k, by simpa using hk, fun j hj => ?_, readAecFilter_eq_error_iff.1 hfail⟩
      have hpair := hbefore j hj
      rw [getElem_filterPairs] at hpair
      exact exists_readAecFilter_eq_ok.1 hpair
    · rintro ⟨k, hk, hbefore, hfail⟩
      refine ⟨k, by simpa using hk, fun j hj => ?_, ?_⟩
      · rw [getElem_filterPairs]
        exact exists_readAecFilter_eq_ok.2 (hbefore j hj)
      · rw [getElem_filterPairs]
        exact readAecFilter_eq_error_iff.2 hfail

/-- In an empty directory the first pair's dump is the first missing one, so a set of one
reference and two microphones is refused naming it. -/
theorem empty_directory_names_first_filter :
    readAecFilters {} (({} : Config.FileConfig).aecFilterPath "aec") 1 2 =
      .error (.missingFile (({} : Config.FileConfig).aecFilterPath "aec" 0 0)) :=
  (readAecFilters_whole_or_nothing {} {} "aec" 1 2).1 0 0 (by decide) (by decide)
    (WorkDir.isFile_empty _) (fun r' m' _ hlex => by omega)

end VoiceBench.Media
