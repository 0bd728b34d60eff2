import Mathlib
import VoiceBench.Control.FileDevice
import VoiceBench.Proofs.Control.Requests
import VoiceBench.Proofs.Control.Codec
import VoiceBench.Proofs.Files.ReadBack

/-!
# The register file

A host over the file-backed device (`fileHost`) keeps every command's values in one register
file of 80 bytes. This module proves what writing and reading named commands does to it.

* A consistent map (`CommandMap.validate`) has distinct names, ids without the read bit, at
  least one value per command and no writable text command (`validate_sound`); a command named
  in upper case is what its name finds (`lookup_of_mem`).
* The device stores a payload of at most 80 bytes, zero-padded, unless a directory stands where
  the file goes; otherwise it refuses and changes nothing (`fileDevice_set`). It answers a read
  of a stored file with a zero status byte and the file's first bytes (`fileDevice_get_stored`).
* A write succeeds exactly when its checks pass, the payload fits and the register file can be
  written, and then it stores the payload (`fileHost_write_eq_ok_iff`); a write that fails
  changes nothing (`fileHost_write_error`).

Main statements: `write_accepted_iff`, a write goes through exactly when the command is found
and writable, given one argument per value, every argument reads as its type, the values lie
in its ranges unless bypassed or it has none, and the payload fits; it stores the payload, a
failed write leaves the state unchanged, and a command line with arguments is that write. And
`read_after_write`: after a write, reading the command gives the values written, bit for bit,
and reading any readable command gives the decoding of its share of the stored payload, for as
long as nothing else is written. Both need the register file's place to be no directory and
names in upper case; `write_blocked_by_directory` and `read_back_fails_for_write_only_or_shadowed`
show why.
-/

namespace VoiceBench.Control

/-! ## Consistent maps -/

namespace CommandMap

/-- A command without a problem has a new name, an id without the read bit, a value, and is
read-only if it carries text. -/
theorem commandProblem_eq_none {names : List String} {ids : List (UInt8 × UInt8)} {c : Command}
    (h : commandProblem names ids c = none) :
    c.name ∉ names ∧ c.id &&& readBit = 0 ∧ c.count ≠ 0 ∧
      (c.type = .char → c.mode = .readOnly) := by
  unfold commandProblem at h
  split at h
  · cases h
  split at h
  · cases h
  next hname =>
  split at h
  · cases h
  next hid =>
  split at h
  · cases h
  split at h
  · cases h
  next hcount =>
  split at h
  · cases h
  next hchar =>
  refine ⟨by simpa using hname, by simpa using hid, hcount, fun ht => ?_⟩
  by_contra hmode
  exact hchar ⟨ht, hmode⟩

/-- Commands without a problem have names distinct from each other and from those declared
before, and each has an id without the read bit, a value, and no write of text. -/
theorem firstProblem_eq_none {names : List String} {ids : List (UInt8 × UInt8)} :
    ∀ {cs : List Command}, firstProblem names ids cs = none →
      (∀ c ∈ cs, c.name ∉ names) ∧ (cs.map (·.name)).Nodup ∧
        ∀ c ∈ cs, c.id &&& readBit = 0 ∧ c.count ≠ 0 ∧ (c.type = .char → c.mode = .readOnly)
  | [], _ => by simp
  | c :: rest, h => by
    unfold firstProblem at h
    cases hp : commandProblem names ids c with
    | some p => simp [hp] at h
    | none =>
      simp only [hp] at h
      obtain ⟨hfresh, hc⟩ := (commandProblem_eq_none hp).imp_right id
      obtain ⟨hrest, hnodup, hwf⟩ := firstProblem_eq_none h
      refine ⟨?_, ?_, ?_⟩
      · intro d hd
        rcases List.mem_cons.1 hd with rfl | hd
        · exact hfresh
        · exact fun hmem => hrest d hd (List.mem_cons_of_mem _ hmem)
      · refine List.nodup_cons.2 ⟨fun hmem => ?_, hnodup⟩
        obtain ⟨d, hd, hdc⟩ := List.mem_map.1 hmem
        exact hrest d hd (hdc ▸ List.mem_cons_self ..)
      · intro d hd
        rcases List.mem_cons.1 hd with rfl | hd
        · exact hc
        · exact hwf d hd

/-- A consistent map has distinct names, and every command an id without the read bit, at least
one value, and no write of text. -/
theorem validate_sound {m : CommandMap} (hm : m.validate = .ok ()) :
    (m.commands.map (·.name)).Nodup ∧
      ∀ c ∈ m.commands, c.id &&& readBit = 0 ∧ c.count ≠ 0 ∧ (c.type = .char → c.mode = .readOnly) := by
  unfold validate at hm
  cases hp : firstProblem [] [] m.commands with
  | some p => simp [hp] at hm
  | none => exact (firstProblem_eq_none hp).2

/-- Among commands of distinct names, a command's own name finds it. -/
theorem find?_name_of_nodup {c : Command} :
    ∀ {cs : List Command}, (cs.map (·.name)).Nodup → c ∈ cs → cs.find? (·.name == c.name) = some c
  | [], _, hc => absurd hc List.not_mem_nil
  | d :: rest, hn, hc => by
    obtain ⟨hd, hrest⟩ := List.nodup_cons.1 hn
    rcases List.mem_cons.1 hc with rfl | hc
    · simp
    · have hne : (d.name == c.name) = false := by
        rw [beq_eq_false_iff_ne]
        intro he
        simp only [List.mem_map] at hd
        exact hd ⟨c, hc, he.symm⟩
      simp only [List.find?_cons, hne]
      exact find?_name_of_nodup hrest hc

/-- In a consistent map, a command named in upper case is what its name finds. -/
theorem lookup_of_mem {m : CommandMap} (hm : m.validate = .ok ()) {c : Command}
    (hc : c ∈ m.commands) (hup : c.name.map Char.toUpper = c.name) :
    m.find? c.name = some c ∧ m.lookup c.name = .ok c := by
  have hfind : m.find? c.name = some c := by
    unfold find?
    simp only [hup]
    exact find?_name_of_nodup (validate_sound hm).1 hc
  exact ⟨hfind, by simp [lookup, hfind]⟩

end CommandMap

/-! ## The file-backed device -/

namespace FileDevice

/-- The register file has a plain name. -/
theorem isName_bufferFile : WorkDir.IsName bufferFile := by decide +kernel

theorem store_length {p : List UInt8} (h : p.length ≤ bufferLength) :
    (store p).length = bufferLength := by
  simp [store]
  omega

end FileDevice

open FileDevice

/-- The device stores a payload that fits, zero-padded, unless a directory stands where the
register file goes; otherwise it refuses, a payload too long before anything else, and changes
nothing. -/
theorem fileDevice_set (res id : UInt8) (p : List UInt8) (w : WorkDir) :
    fileDevice.set res id p w =
      if p.length ≤ bufferLength ∧ w.isDirAt bufferFile = false then
        (.ok (), w.put bufferFile (store p))
      else (.error (if p.length ≤ bufferLength then .controlError else .dataLengthError), w) := by
  simp only [fileDevice, WorkDir.write_name w isName_bufferFile]
  by_cases hlen : p.length ≤ bufferLength
  · cases w.isDirAt bufferFile <;> simp [hlen]
  · simp [hlen, show bufferLength < p.length by omega]

/-- The device never answers a write that it is busy. -/
theorem fileDevice_set_not_busy (res id : UInt8) (p : List UInt8) (w : WorkDir) :
    (fileDevice.set res id p w).1 ≠ .error .commandRetry := by
  rw [fileDevice_set]
  split
  · simp
  · split <;> simp

/-- A read of `n` values' bytes from a stored register file is answered at once, with a zero
status byte and the file's first `n` bytes, unless it asks for the device name. -/
theorem fileDevice_get_stored (res cmd : UInt8) {n : Nat} (hn : n ≤ bufferLength) {w : WorkDir}
    {buf : List UInt8} (hbuf : w.read bufferFile = .ok buf) (hlen : buf.length = bufferLength)
    (hcmd : cmd &&& ~~~readBit ≠ nameCommandId) :
    fileDevice.get res cmd (List.replicate (n + 1) 0) w = (.ok (0 :: buf.take n), w) := by
  have hload : load w = .ok buf := by simp [load, hbuf, hlen]
  have hpad : n - min n buf.length = 0 := by omega
  simp [fileDevice, hload, answer, hcmd, hpad, show ¬ bufferLength + 1 < n + 1 by omega]

/-- The register file just stored reads back as stored. -/
theorem read_put_bufferFile {w : WorkDir} (hdir : w.isDirAt bufferFile = false)
    (b : List UInt8) : (w.put bufferFile b).read bufferFile = .ok b := by
  refine WorkDir.read_of_write (w := w) ?_
  rw [WorkDir.write_name w isName_bufferFile, hdir]
  rfl

/-! ## Writing named commands -/

/-- Against a consistent map, the checks of a write pass exactly when the name finds a writable
command, there is one argument per value, every argument reads as the command's type, and the
ranges are bypassed or hold. -/
theorem Host.checkWrite_eq_ok_iff {σ : Type} (h : Host σ) (hm : h.map.validate = .ok ())
    {name : String} {args : List String} {c : Command} {values : List Value} :
    h.checkWrite name args = .ok (c, values) ↔
      h.map.find? name = some c ∧ c.mode.writable = true ∧ args.length = c.count ∧
        args.mapM c.type.parse = .ok values ∧ (h.bypass = true ∨ c.checkRanges values = .ok ()) := by
  rw [h.checkWrite_eq_ok_iff_access]
  refine and_congr_right fun hf => ?_
  obtain ⟨-, hcount, hchar⟩ := (CommandMap.validate_sound hm).2 c (List.mem_of_find?_eq_some hf)
  have htype : c.mode.writable = true → c.type ≠ .char := fun hw ht => by
    simp [hchar ht, AccessMode.writable] at hw
  rw [Command.accessFor_eq_write_iff c hcount]
  constructor
  · rintro ⟨⟨hlen, hw⟩, -, hp, hr⟩
    exact ⟨hw, hlen, hp, hr⟩
  · rintro ⟨hw, hlen, hp, hr⟩
    exact ⟨⟨hlen, hw⟩, htype hw, hp, hr⟩

/-- The payload of the values read from one argument per value has the command's length. -/
theorem encode_length_of_parse {c : Command} {args : List String} {values : List Value}
    (hp : args.mapM c.type.parse = .ok values) (hlen : args.length = c.count) :
    (Command.encode values).length = c.count * c.type.size := by
  obtain ⟨hvl, htype⟩ := mapM_parse_type hp
  rw [Command.encode_length htype, hvl, hlen]

/-- A host over the register file of a working directory, with a command map and the choice
of bypassing range checks. -/
def fileHost (m : CommandMap) (bypass : Bool) : Host WorkDir :=
  { device := fileDevice, map := m, bypass }

section Writes

variable {m : CommandMap} {bypass : Bool} {name : String} {args : List String}

/-- A write to the register file succeeds exactly when its checks pass, the payload fits and no
directory stands where the file goes; it stores the payload and writes no text. -/
theorem fileHost_write_eq_ok_iff {r r' : Run WorkDir} :
    ((fileHost m bypass).write name args).run.run r = (.ok (), r') ↔
      ∃ c values, (fileHost m bypass).checkWrite name args = .ok (c, values) ∧
        (Command.encode values).length ≤ bufferLength ∧ r.device.isDirAt bufferFile = false ∧
        r' = { r with device := r.device.put bufferFile (store (Command.encode values)) } := by
  rw [Host.write_run]
  cases hcheck : (fileHost m bypass).checkWrite name args with
  | error e =>
    constructor
    · intro h
      cases h
    · rintro ⟨c, values, h, -⟩
      cases h
  | ok cv =>
    obtain ⟨c, values⟩ := cv
    simp only [fileHost] at hcheck ⊢
    rw [writeRaw_run_of_not_busy _ _ _ _ (fileDevice_set_not_busy _ _ _ _), fileDevice_set]
    by_cases hfit : (Command.encode values).length ≤ bufferLength ∧
        r.device.isDirAt bufferFile = false
    · rw [if_pos hfit]
      constructor
      · intro h
        cases h
        exact ⟨c, values, rfl, hfit.1, hfit.2, rfl⟩
      · rintro ⟨c', values', hcv, -, -, rfl⟩
        cases hcv
        rfl
    · rw [if_neg hfit]
      constructor
      · intro h
        cases h
      · rintro ⟨c', values', hcv, hlen, hdir, -⟩
        cases hcv
        exact absurd ⟨hlen, hdir⟩ hfit

/-- A write to the register file that fails changes nothing. -/
theorem fileHost_write_error {r r' : Run WorkDir} {e : Error}
    (h : ((fileHost m bypass).write name args).run.run r = (.error e, r')) : r' = r := by
  rw [Host.write_run] at h
  cases hcheck : (fileHost m bypass).checkWrite name args with
  | error e' =>
    rw [hcheck] at h
    cases h
    rfl
  | ok cv =>
    rw [hcheck] at h
    simp only [fileHost] at h
    rw [writeRaw_run_of_not_busy _ _ _ _ (fileDevice_set_not_busy _ _ _ _), fileDevice_set] at h
    by_cases hfit : (Command.encode cv.2).length ≤ bufferLength ∧
        r.device.isDirAt bufferFile = false
    · rw [if_pos hfit] at h
      cases h
    · rw [if_neg hfit] at h
      cases h
      rfl

/-- The values pass the range check exactly when the command has no ranges or each lies in one
of them. -/
theorem checkRanges_eq_ok_iff (c : Command) (values : List Value) :
    c.checkRanges values = .ok () ↔ c.ranges = [] ∨
      ∀ v ∈ values, ∃ rg ∈ c.ranges, rg.min ≤ v.toDouble ∧ v.toDouble ≤ rg.max := by
  unfold Command.checkRanges
  by_cases hnil : c.ranges = []
  · simp [hnil]
  · have hempty : c.ranges.isEmpty = false := by simpa using hnil
    simp only [hempty, Bool.false_eq_true, if_false, hnil, false_or]
    cases hfind : values.find? fun v => !c.ranges.any (·.contains v.toDouble) with
    | some v =>
      have hv := List.find?_some hfind
      have hmem := List.mem_of_find?_eq_some hfind
      simp only [Bool.not_eq_eq_eq_not, Bool.not_true, List.any_eq_false] at hv
      simp only [reduceCtorEq, false_iff, not_forall]
      refine ⟨v, hmem, fun ⟨rg, hrg, hin⟩ => ?_⟩
      simpa [ValueRange.contains, hin] using hv rg hrg
    | none =>
      simp only [List.find?_eq_none, Bool.not_eq_eq_eq_not, Bool.not_true, List.any_eq_false,
        not_forall, not_not] at hfind
      simp only [true_iff]
      intro v hv
      obtain ⟨rg, hrg, hin⟩ := List.any_eq_true.1 (by simpa using hfind v hv)
      exact ⟨rg, hrg, by simpa [ValueRange.contains] using hin⟩

end Writes

/-! ## Reading the stored registers -/

/-- A readable command of a consistent map, named in upper case, with a payload that fits and
not asking for the device name, reads the decoding of its share of a stored register file,
and the read changes nothing. -/
theorem fileHost_read_stored {m : CommandMap} (hm : m.validate = .ok ()) (bypass : Bool)
    {d : Command} (hd : d ∈ m.commands) (hup : d.name.map Char.toUpper = d.name)
    (hread : d.mode.readable = true) (hfit : d.payloadLength ≤ bufferLength)
    (hid : d.id ≠ nameCommandId) {r : Run WorkDir} {buf : List UInt8}
    (hbuf : r.device.read bufferFile = .ok buf) (hlen : buf.length = bufferLength) :
    ((fileHost m bypass).read d.name).run.run r = (d.decode (buf.take d.payloadLength), r) := by
  obtain ⟨hidbit, -, -⟩ := (CommandMap.validate_sound hm).2 d hd
  have hcmd : d.readId &&& ~~~readBit ≠ nameCommandId := by
    rw [Command.readId_clear hidbit]
    exact hid
  have hanswer : d.readLength = d.payloadLength + 1 :=
    Command.readLength_of_lt (lt_of_le_of_lt (Nat.succ_le_succ hfit) (by decide))
  refine Host.read_run_of_ready _ (CommandMap.lookup_of_mem hm hd hup).2 hread r.output ?_
  rw [hanswer]
  exact fileDevice_get_stored _ _ hfit hbuf hlen hcmd

/-! ## Accepted writes -/

/-- What a write of text arguments to a named command needs to go through to the register
file, and the values it then stores: the name finds a writable command, there is one argument
per value, every argument reads as the command's type, the values lie in the command's ranges
unless these are bypassed or there are none, and the payload, `count * size` bytes counted
exactly, fits the file. -/
structure WriteAccepted (m : CommandMap) (bypass : Bool) (name : String) (args : List String)
    (c : Command) (values : List Value) : Prop where
  found : m.find? name = some c
  writable : c.mode.writable = true
  arity : args.length = c.count
  parsed : args.mapM c.type.parse = .ok values
  inRanges : bypass = true ∨ c.ranges = [] ∨
    ∀ v ∈ values, ∃ rg ∈ c.ranges, rg.min ≤ v.toDouble ∧ v.toDouble ≤ rg.max
  fits : c.count * c.type.size ≤ bufferLength

/-- Against a consistent map and a register file whose place holds no directory, a write
succeeds exactly when it is accepted, and then stores its values' payload zero-padded to 80
bytes; a write that fails, whatever the failure, leaves the register file and everything else
as it was; and a command line with arguments is that write. -/
theorem write_accepted_iff {m : CommandMap} (hm : m.validate = .ok ()) (bypass : Bool)
    (name : String) (args : List String) {w : WorkDir} (hdir : w.isDirAt bufferFile = false)
    (o : String) :
    (∀ r', ((fileHost m bypass).write name args).run.run ⟨w, o⟩ = (.ok (), r') ↔
        ∃ c values, WriteAccepted m bypass name args c values ∧
          r' = ⟨w.put bufferFile (store (Command.encode values)), o⟩) ∧
      (∀ e r', ((fileHost m bypass).write name args).run.run ⟨w, o⟩ = (.error e, r') →
        r' = ⟨w, o⟩) ∧
      (args ≠ [] → ((fileHost m bypass).execute name args).run.run ⟨w, o⟩ =
        ((fileHost m bypass).write name args).run.run ⟨w, o⟩) := by
  refine ⟨fun r' => ?_, fun e r' h => fileHost_write_error h,
    fun hargs => Host.execute_run_of_ne_nil _ _ hargs _⟩
  rw [fileHost_write_eq_ok_iff]
  constructor
  · rintro ⟨c, values, hcheck, hfit, -, rfl⟩
    obtain ⟨hfound, hw, hlen, hp, hranges⟩ := (Host.checkWrite_eq_ok_iff _ hm).1 hcheck
    refine ⟨c, values, ⟨hfound, hw, hlen, hp, ?_, ?_⟩, rfl⟩
    · rcases hranges with hb | hr
      · exact .inl hb
      · exact .inr ((checkRanges_eq_ok_iff c values).1 hr)
    · rwa [encode_length_of_parse hp hlen] at hfit
  · rintro ⟨c, values, hacc, rfl⟩
    have hranges : bypass = true ∨ c.checkRanges values = .ok () := by
      rcases hacc.inRanges with hb | hr
      · exact .inl hb
      · exact .inr ((checkRanges_eq_ok_iff c values).2 hr)
    refine ⟨c, values, (Host.checkWrite_eq_ok_iff _ hm).2
      ⟨hacc.found, hacc.writable, hacc.arity, hacc.parsed, hranges⟩, ?_, hdir, rfl⟩
    rw [encode_length_of_parse hacc.parsed hacc.arity]
    exact hacc.fits

/-- A word to read and write. -/
def pairWord : Command :=
  { name := "CMD_A", resource := 0, id := 1, type := .int32, mode := .readWrite, count := 1 }

/-- A byte that can only be written. -/
def pairByte : Command :=
  { name := "CMD_B", resource := 0, id := 2, type := .uint8, mode := .writeOnly, count := 1 }

/-- The word and the byte, sharing the register file. -/
def pairMap : CommandMap := ⟨CommandMap.testInfo, [pairWord, pairByte]⟩

/-- The word command of `pairMap` accepts a write of 7 into an empty directory, and the write
stores it. -/
theorem pair_write_stores_word :
    pairMap.validate = .ok () ∧ ({} : WorkDir).isDirAt bufferFile = false ∧
      ((fileHost pairMap false).write "CMD_A" ["7"]).run.run ⟨{}, ""⟩ =
        (.ok (), ⟨({} : WorkDir).put bufferFile (store [7, 0, 0, 0]), ""⟩) := by
  have hm : pairMap.validate = .ok () := by decide +kernel
  have hdir : ({} : WorkDir).isDirAt bufferFile = false := by decide +kernel
  have hfound : pairMap.find? "CMD_A" = some pairWord :=
    (CommandMap.lookup_of_mem (c := pairWord) hm (by simp [pairMap]) (by decide +kernel)).1
  refine ⟨hm, hdir, ((write_accepted_iff hm false "CMD_A" ["7"] hdir "").1 _).2
    ⟨_, [.int32 7], ⟨hfound, rfl, rfl, by decide +kernel, .inr (.inl rfl), by decide⟩, rfl⟩⟩

/-- A register file that a directory stands in the place of cannot be written, although the
write is accepted: the device reports a control error. -/
theorem write_blocked_by_directory :
    WriteAccepted pairMap false "CMD_A" ["7"] pairWord [.int32 7] ∧
      ((fileHost pairMap false).write "CMD_A" ["7"]).run.run
          ⟨{ files := [("test_buf.bin/keep.txt", [120])] }, ""⟩ =
        (.error (.command .write "CMD_A" .controlError),
          ⟨{ files := [("test_buf.bin/keep.txt", [120])] }, ""⟩) := by
  have hfound : pairMap.find? "CMD_A" = some pairWord :=
    (CommandMap.lookup_of_mem (m := pairMap) (c := pairWord) (by decide +kernel) (by simp [pairMap])
      (by decide +kernel)).1
  refine ⟨⟨hfound, rfl, rfl, by decide +kernel, .inr (.inl rfl), by decide⟩, ?_⟩
  show (_ : Except Error Unit × Run WorkDir) = _
  decide +kernel

/-! ## Reading back what was written -/

/-- After a write to a read/write command of a consistent map, named in upper case and not
asking for the device name, reading the command gives the values read from the arguments, bit
for bit. Reading any readable command of the map named in upper case, with a payload that fits
and not asking for the device name, gives the decoding of its share of the stored payload, and
reads change nothing, so this holds until the next write. -/
theorem read_after_write {m : CommandMap} (hm : m.validate = .ok ()) (bypass : Bool)
    {c : Command} (hc : c ∈ m.commands) (hup : c.name.map Char.toUpper = c.name)
    (hrw : c.mode = .readWrite) (hid : c.id ≠ nameCommandId) {args : List String}
    {r r' : Run WorkDir} (hw : ((fileHost m bypass).write c.name args).run.run r = (.ok (), r')) :
    ∃ values, args.mapM c.type.parse = .ok values ∧
      ((fileHost m bypass).read c.name).run.run r' = (.ok values, r') ∧
      ∀ d ∈ m.commands, d.name.map Char.toUpper = d.name → d.mode.readable = true →
        d.payloadLength ≤ bufferLength → d.id ≠ nameCommandId →
        ((fileHost m bypass).read d.name).run.run r' =
          (d.decode ((store (Command.encode values)).take d.payloadLength), r') := by
  obtain ⟨c', values, hcheck, hfit, hdir, rfl⟩ := fileHost_write_eq_ok_iff.1 hw
  obtain ⟨hfound, -, hlen, hp, -⟩ := (Host.checkWrite_eq_ok_iff _ hm).1 hcheck
  obtain rfl : c' = c :=
    (Option.some.inj ((CommandMap.lookup_of_mem hm hc hup).1.symm.trans hfound)).symm
  have hreads := fun d hd hupd hread hfitd hidd =>
    fileHost_read_stored hm bypass (d := d)
      (r := { r with device := r.device.put bufferFile (store (Command.encode values)) })
      hd hupd hread hfitd hidd (read_put_bufferFile hdir _) (store_length hfit)
  refine ⟨values, hp, ?_, hreads⟩
  obtain ⟨hvl, htype⟩ := mapM_parse_type hp
  have hpl := encode_length_of_parse hp hlen
  have hnowrap : c'.count * c'.type.size < Nat.pow 2 64 :=
    lt_of_le_of_lt (hpl ▸ hfit) (by decide)
  have hpay : c'.payloadLength = (Command.encode values).length := by
    rw [hpl, Command.payloadLength_of_lt hnowrap]
  rw [hreads c' hc hup (by simp [hrw, AccessMode.readable]) (hpay ▸ hfit) hid, hpay, store,
    List.take_left' rfl, Command.decode_encode c' htype (hvl.trans hlen) hnowrap]

/-- Writing 7 to the word command of `pairMap` in an empty directory reads back as 7, and the
byte command's share of the register file is its first byte. -/
theorem pair_word_reads_back :
    ((fileHost pairMap false).write pairWord.name ["7"]).run.run ⟨{}, ""⟩ =
        (.ok (), ⟨{ files := [(bufferFile, store [7, 0, 0, 0])] }, ""⟩) ∧
      ∃ values, ["7"].mapM pairWord.type.parse = .ok values ∧
        ((fileHost pairMap false).read pairWord.name).run.run
            ⟨{ files := [(bufferFile, store [7, 0, 0, 0])] }, ""⟩ =
          (.ok values, ⟨{ files := [(bufferFile, store [7, 0, 0, 0])] }, ""⟩) ∧
        ∀ d ∈ pairMap.commands, d.name.map Char.toUpper = d.name → d.mode.readable = true →
          d.payloadLength ≤ bufferLength → d.id ≠ nameCommandId →
          ((fileHost pairMap false).read d.name).run.run
              ⟨{ files := [(bufferFile, store [7, 0, 0, 0])] }, ""⟩ =
            (d.decode ((store (Command.encode values)).take d.payloadLength),
              ⟨{ files := [(bufferFile, store [7, 0, 0, 0])] }, ""⟩) := by
  have hw : ((fileHost pairMap false).write pairWord.name ["7"]).run.run ⟨{}, ""⟩ =
      (.ok (), ⟨{ files := [(bufferFile, store [7, 0, 0, 0])] }, ""⟩) := by
    show (_ : Except Error Unit × Run WorkDir) = _
    decide +kernel
  exact ⟨hw, read_after_write (by decide +kernel) false (by simp [pairMap]) (by decide +kernel) rfl
    (by decide) hw⟩

/-- A command that can only be written cannot be read back, and a command whose name is not in
upper case is shadowed by the command its name finds: after a write that succeeds, reading the
byte command of `pairMap`, or the lower-case command of a map that also has its upper-case
namesake, fails for the number of arguments. -/
theorem read_back_fails_for_write_only_or_shadowed :
    (((fileHost pairMap false).write "CMD_A" ["7"]).run.run ⟨{}, ""⟩ =
        (.ok (), ⟨{ files := [(bufferFile, store [7, 0, 0, 0])] }, ""⟩) ∧
      ((fileHost pairMap false).read "CMD_B").run.run
          ⟨{ files := [(bufferFile, store [7, 0, 0, 0])] }, ""⟩ =
        (.error (.argCount "CMD_B" .writeOnly 1 0),
          ⟨{ files := [(bufferFile, store [7, 0, 0, 0])] }, ""⟩)) ∧
    let shadowed : CommandMap := ⟨CommandMap.testInfo,
      [{ name := "a", resource := 0, id := 1, type := .int32, mode := .readWrite, count := 1 },
       { name := "A", resource := 0, id := 2, type := .uint8, mode := .writeOnly, count := 1 }]⟩
    shadowed.validate = .ok () ∧
      ((fileHost shadowed false).write "a" ["7"]).run.run ⟨{}, ""⟩ =
        (.ok (), ⟨{ files := [(bufferFile, store [7])] }, ""⟩) ∧
      ((fileHost shadowed false).read "a").run.run ⟨{ files := [(bufferFile, store [7])] }, ""⟩ =
        (.error (.argCount "A" .writeOnly 1 0), ⟨{ files := [(bufferFile, store [7])] }, ""⟩) := by
  refine ⟨⟨?_, ?_⟩, by decide +kernel, ?_, ?_⟩
  all_goals
    show (_ : Except Error _ × Run WorkDir) = _
    decide +kernel

end VoiceBench.Control
