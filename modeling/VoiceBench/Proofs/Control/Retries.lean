import Mathlib
import VoiceBench.Proofs.Control.Requests
import VoiceBench.Control.FileDevice
import VoiceBench.Proofs.Files.ReadBack

/-!
# Bounded retries of reads and writes

A read of a command polls the device until it answers with a zero status byte; a write is sent
again while the device answers that it is busy. Both give up after `maxAttempts` tries. This
module says, for every device and every command, how such a run ends, in terms of the answers
the device gives along it.

`BusyReads d c k buf s last t` says the device, from state `s`, answers `k` reads in a row with
a nonzero status byte, each read given the buffer the one before filled (`buf` for the first);
`last` is the buffer and `t` the state after them. `BusyWrites` says the same of writes answered
`commandRetry`. A poll that runs through busy answers is the poll after them with as many tries
fewer (`pollRead_busyReads`, `pushWrite_busyWrites`); from these:

* the first read answer that fails decides the read with its status, the first with a zero
  status byte returns the rest of its buffer, and after `maxAttempts` busy answers the read
  fails with the status the last one names, `controlError` for a byte that names none
  (`readRaw_of_busyReads_error`, `readRaw_of_busyReads_ready`,
  `readRaw_of_busyReads_exhausted`);
* an answer with no status byte stops the read on the defect of reading one
  (`readRaw_of_busyReads_empty`). A device that fills the buffer it is given is always given
  `readLength` bytes (`BusyReads.length_eq`), so it returns `payloadLength` bytes when ready,
  and it gives an answer of no bytes only when the payload length is the largest word and the
  buffer wraps to none (`Command.readLength_cases`);
* the first write answer other than `commandRetry` decides the write, and after `maxAttempts`
  of them the write fails with `commandRetry` (`writeRaw_of_busyWrites_ok`,
  `writeRaw_of_busyWrites_error`, `writeRaw_of_busyWrites_exhausted`);
* every run is one of these: the device answers busy `maxAttempts` times, or an earlier answer
  is not busy (`BusyReads.exists_decided`, `BusyWrites.exists_decided`).

`ReadEnds` and `WriteEnds` gather the cases; `bounded_retries` states them for every device. A
device that answers from a fixed sequence of responses is one of them, its state counting the
answers given so far.
-/

namespace VoiceBench.Control

variable {σ : Type} (d : Device σ) (c : Command)

/-! ## Busy answers -/

/-- The device answers `k` reads of the command in a row with a nonzero status byte, from state
`s`: the first read is given `buf`, every later one the buffer the one before filled, and `last`
and `t` are the buffer and the state after them. -/
inductive BusyReads : Nat → List UInt8 → σ → List UInt8 → σ → Prop
  | nil (buf : List UInt8) (s : σ) : BusyReads 0 buf s buf s
  | cons {k : Nat} {buf rest last : List UInt8} {status : UInt8} {s s' t : σ} :
      d.get c.resource c.readId buf s = (.ok (status :: rest), s') → status ≠ 0 →
      BusyReads k (status :: rest) s' last t → BusyReads (k + 1) buf s last t

/-- The device answers `k` writes of the payload in a row that it is busy, from state `s` to
state `t`. -/
inductive BusyWrites (p : List UInt8) : Nat → σ → σ → Prop
  | nil (s : σ) : BusyWrites p 0 s s
  | cons {k : Nat} {s s' t : σ} :
      d.set c.resource c.id p s = (.error .commandRetry, s') → BusyWrites p k s' t →
      BusyWrites p (k + 1) s t

/-- A device that fills the buffer a read gives it, as one writing into a buffer of fixed size
does: every answer is as long as the buffer. -/
def Device.FillsBuffer : Prop :=
  ∀ res cmd buf s out s', d.get res cmd buf s = (.ok out, s') → out.length = buf.length

/-- Busy answers of a device that fills its buffer keep the buffer's length. -/
theorem BusyReads.length_eq {d : Device σ} {c : Command} (hfill : d.FillsBuffer)
    {k : Nat} {buf last : List UInt8} {s t : σ} (h : BusyReads d c k buf s last t) :
    last.length = buf.length := by
  induction h with
  | nil => rfl
  | cons hget _ _ ih => rw [ih, hfill _ _ _ _ _ _ hget]

/-- After at least one busy answer the buffer holds the nonzero status byte of the last. -/
theorem BusyReads.last_busy {k : Nat} {buf last : List UInt8} {s t : σ}
    (h : BusyReads d c (k + 1) buf s last t) : ∃ status rest, last = status :: rest ∧ status ≠ 0 := by
  generalize hk : k + 1 = n at h
  induction h generalizing k with
  | nil => omega
  | @cons k' _ rest _ status _ _ _ _ hbusy hrest ih =>
    cases k' with
    | zero =>
      cases hrest
      exact ⟨status, rest, rfl, hbusy⟩
    | succ j => exact ih rfl

/-- Either the device answers busy to `n` reads in a row, or one of the first `n` answers is a
failure, has no status byte or has a zero one. -/
theorem BusyReads.exists_decided :
    ∀ (n : Nat) (buf : List UInt8) (s : σ),
      (∃ last t, BusyReads d c n buf s last t) ∨
        ∃ k < n, ∃ last t, BusyReads d c k buf s last t ∧
          ∀ status rest, (d.get c.resource c.readId last t).1 = .ok (status :: rest) → status = 0
  | 0, buf, s => .inl ⟨buf, s, .nil buf s⟩
  | n + 1, buf, s => by
    rcases hget : d.get c.resource c.readId buf s with ⟨_ | _ | ⟨status, rest⟩, s'⟩
    · exact .inr ⟨0, by omega, buf, s, .nil buf s, by simp [hget]⟩
    · exact .inr ⟨0, by omega, buf, s, .nil buf s, by simp [hget]⟩
    · by_cases hready : status = 0
      · refine .inr ⟨0, by omega, buf, s, .nil buf s, fun status' rest' hout => ?_⟩
        simp only [hget, Except.ok.injEq, List.cons.injEq] at hout
        exact hout.1 ▸ hready
      rcases BusyReads.exists_decided n (status :: rest) s' with
        ⟨last, t, h⟩ | ⟨k, hk, last, t, h, hdec⟩
      · exact .inl ⟨last, t, .cons hget hready h⟩
      · exact .inr ⟨k + 1, by omega, last, t, .cons hget hready h, hdec⟩

/-- Either the device answers busy to `n` writes in a row, or one of the first `n` answers is
not `commandRetry`. -/
theorem BusyWrites.exists_decided (p : List UInt8) :
    ∀ (n : Nat) (s : σ),
      (∃ t, BusyWrites d c p n s t) ∨
        ∃ k < n, ∃ t, BusyWrites d c p k s t ∧
          (d.set c.resource c.id p t).1 ≠ .error .commandRetry
  | 0, s => .inl ⟨s, .nil s⟩
  | n + 1, s => by
    rcases hset : d.set c.resource c.id p s with ⟨answer, s'⟩
    by_cases hbusy : answer = .error .commandRetry
    · subst hbusy
      rcases BusyWrites.exists_decided p n s' with ⟨t, h⟩ | ⟨k, hk, t, h, hdec⟩
      · exact .inl ⟨t, .cons hset h⟩
      · exact .inr ⟨k + 1, by omega, t, .cons hset h, hdec⟩
    · exact .inr ⟨0, by omega, s, .nil s, by simpa [hset] using hbusy⟩

/-! ## Polling a read -/

section Reads

variable {d c}

/-- With no tries left a read fails with the status the buffer's first byte names. -/
theorem pollRead_zero (status : UInt8) (rest : List UInt8) (r : Run σ) :
    (pollRead d c 0 (status :: rest)).run.run r =
      (.error (.command .read c.name ((Status.ofCode? status.toNat).getD .controlError)), r) :=
  rfl

/-- A failed answer ends the poll with its status. -/
theorem pollRead_of_error (n : Nat) {buf : List UInt8} {s s' : σ} {st : Status} (o : String)
    (h : d.get c.resource c.readId buf s = (.error st, s')) :
    (pollRead d c (n + 1) buf).run.run ⟨s, o⟩ = (.error (.command .read c.name st), ⟨s', o⟩) := by
  rw [pollRead, run_bind_of_ok (run_transact _ _)]
  simp [h]
  rfl

/-- An answer with no status byte stops the poll on the defect of reading one. -/
theorem pollRead_of_empty (n : Nat) {buf : List UInt8} {s s' : σ} (o : String)
    (h : d.get c.resource c.readId buf s = (.ok [], s')) :
    (pollRead d c (n + 1) buf).run.run ⟨s, o⟩ = (.error (.abort emptyBufferRead), ⟨s', o⟩) := by
  rw [pollRead, run_bind_of_ok (run_transact _ _)]
  simp [h]
  rfl

/-- A busy answer is polled again with its own buffer and one try fewer. -/
theorem pollRead_of_busy (n : Nat) {buf rest : List UInt8} {status : UInt8} {s s' : σ}
    (o : String) (h : d.get c.resource c.readId buf s = (.ok (status :: rest), s'))
    (hbusy : status ≠ 0) :
    (pollRead d c (n + 1) buf).run.run ⟨s, o⟩ =
      (pollRead d c n (status :: rest)).run.run ⟨s', o⟩ := by
  rw [pollRead, run_bind_of_ok (run_transact _ _)]
  simp [h, hbusy]

/-- A poll runs through busy answers: after `k` of them it is the poll of the last buffer with
`k` tries fewer. -/
theorem pollRead_busyReads {k : Nat} {buf last : List UInt8} {s t : σ}
    (h : BusyReads d c k buf s last t) (n : Nat) (o : String) :
    (pollRead d c (k + n) buf).run.run ⟨s, o⟩ = (pollRead d c n last).run.run ⟨t, o⟩ := by
  induction h with
  | nil => rw [Nat.zero_add]
  | cons hget hbusy _ ih =>
    rw [Nat.add_right_comm, pollRead_of_busy _ o hget hbusy, ih]

/-- The buffer a read starts with: `readLength` zero bytes. -/
def firstBuffer (c : Command) : List UInt8 := List.replicate c.readLength 0

@[simp] theorem length_firstBuffer (c : Command) : (firstBuffer c).length = c.readLength :=
  List.length_replicate

/-- A read polls from the first buffer with `maxAttempts` tries. -/
theorem readRaw_eq_pollRead : readRaw d c = pollRead d c maxAttempts (firstBuffer c) := rfl

/-- Tries left after `k < maxAttempts` busy answers: at least one. -/
theorem exists_tries_left {k : Nat} (hk : k < maxAttempts) : ∃ n, maxAttempts = k + (n + 1) :=
  ⟨maxAttempts - k - 1, by omega⟩

/-- A read whose first answer that is not busy fails, within the bound, fails with its
status. -/
theorem readRaw_of_busyReads_error {k : Nat} {last : List UInt8} {s t t' : σ} {st : Status}
    (o : String) (h : BusyReads d c k (firstBuffer c) s last t) (hk : k < maxAttempts)
    (hget : d.get c.resource c.readId last t = (.error st, t')) :
    (readRaw d c).run.run ⟨s, o⟩ = (.error (.command .read c.name st), ⟨t', o⟩) := by
  obtain ⟨n, hn⟩ := exists_tries_left hk
  rw [readRaw_eq_pollRead, hn, pollRead_busyReads h, pollRead_of_error n o hget]

/-- A read whose first answer that is not busy has a zero status byte, within the bound,
returns that answer without its status byte. -/
theorem readRaw_of_busyReads_ready {k : Nat} {last rest : List UInt8} {s t t' : σ} (o : String)
    (h : BusyReads d c k (firstBuffer c) s last t) (hk : k < maxAttempts)
    (hget : d.get c.resource c.readId last t = (.ok (0 :: rest), t')) :
    (readRaw d c).run.run ⟨s, o⟩ = (.ok rest, ⟨t', o⟩) := by
  obtain ⟨n, hn⟩ := exists_tries_left hk
  rw [readRaw_eq_pollRead, hn, pollRead_busyReads h, pollRead_of_ready d c n o hget]

/-- A read whose first answer that is not busy has no status byte, within the bound, stops on
the defect of reading one. -/
theorem readRaw_of_busyReads_empty {k : Nat} {last : List UInt8} {s t t' : σ} (o : String)
    (h : BusyReads d c k (firstBuffer c) s last t) (hk : k < maxAttempts)
    (hget : d.get c.resource c.readId last t = (.ok [], t')) :
    (readRaw d c).run.run ⟨s, o⟩ = (.error (.abort emptyBufferRead), ⟨t', o⟩) := by
  obtain ⟨n, hn⟩ := exists_tries_left hk
  rw [readRaw_eq_pollRead, hn, pollRead_busyReads h, pollRead_of_empty n o hget]

/-- A read the device answers busy `maxAttempts` times fails with the status the last answer's
first byte names, `controlError` if it names none. -/
theorem readRaw_of_busyReads_exhausted {last : List UInt8} {s t : σ} (o : String)
    (h : BusyReads d c maxAttempts (firstBuffer c) s last t) :
    ∃ status rest, last = status :: rest ∧ status ≠ 0 ∧
      (readRaw d c).run.run ⟨s, o⟩ =
        (.error (.command .read c.name ((Status.ofCode? status.toNat).getD .controlError)),
          ⟨t, o⟩) := by
  obtain ⟨status, rest, rfl, hbusy⟩ := BusyReads.last_busy d c (k := maxAttempts - 1) h
  refine ⟨status, rest, rfl, hbusy, ?_⟩
  rw [readRaw_eq_pollRead, ← Nat.add_zero maxAttempts, pollRead_busyReads h, pollRead_zero]

/-- A device that fills its buffer, ready with a zero status byte, gives the payload's length
in bytes after it. -/
theorem length_of_ready {d : Device σ} (hfill : d.FillsBuffer) {k : Nat}
    {last rest : List UInt8} {s t t' : σ} (h : BusyReads d c k (firstBuffer c) s last t)
    (hget : d.get c.resource c.readId last t = (.ok (0 :: rest), t')) :
    rest.length = c.payloadLength := by
  have hlen : rest.length + 1 = c.readLength := by
    rw [← length_firstBuffer, ← h.length_eq hfill, ← hfill _ _ _ _ _ _ hget, List.length_cons]
  rcases c.readLength_cases with hr | ⟨hr, _⟩ <;> omega

/-- A device that fills its buffer answers with no bytes only to a buffer of none: the payload
length is the largest word. -/
theorem payloadLength_of_empty {d : Device σ} (hfill : d.FillsBuffer) {k : Nat}
    {last : List UInt8} {s t t' : σ} (h : BusyReads d c k (firstBuffer c) s last t)
    (hget : d.get c.resource c.readId last t = (.ok [], t')) :
    c.payloadLength + 1 = Nat.pow 2 64 := by
  have hlen : 0 = c.readLength := by
    rw [← length_firstBuffer, ← h.length_eq hfill, ← hfill _ _ _ _ _ _ hget, List.length_nil]
  rcases c.readLength_cases with hr | ⟨_, hwrap⟩
  · omega
  · exact hwrap

end Reads

/-! ## Repeating a write -/

section Writes

variable {d c} {p : List UInt8}

/-- With no tries left a write fails as busy. -/
theorem pushWrite_zero (r : Run σ) :
    (pushWrite d c p 0).run.run r = (.error (.command .write c.name .commandRetry), r) :=
  rfl

/-- A busy answer is sent again with one try fewer. -/
theorem pushWrite_of_busy (n : Nat) {s s' : σ} (o : String)
    (h : d.set c.resource c.id p s = (.error .commandRetry, s')) :
    (pushWrite d c p (n + 1)).run.run ⟨s, o⟩ = (pushWrite d c p n).run.run ⟨s', o⟩ := by
  rw [pushWrite, run_bind_of_ok (run_transact _ _)]
  simp [h]

/-- A write runs through busy answers: after `k` of them it is the write with `k` tries
fewer. -/
theorem pushWrite_busyWrites {k : Nat} {s t : σ} (h : BusyWrites d c p k s t) (n : Nat)
    (o : String) :
    (pushWrite d c p (k + n)).run.run ⟨s, o⟩ = (pushWrite d c p n).run.run ⟨t, o⟩ := by
  induction h with
  | nil => rw [Nat.zero_add]
  | cons hset _ ih => rw [Nat.add_right_comm, pushWrite_of_busy _ o hset, ih]

/-- A write whose first answer that is not busy is a success, within the bound, succeeds. -/
theorem writeRaw_of_busyWrites_ok {k : Nat} {s t t' : σ} (o : String) (h : BusyWrites d c p k s t)
    (hk : k < maxAttempts) (hset : d.set c.resource c.id p t = (.ok (), t')) :
    (writeRaw d c p).run.run ⟨s, o⟩ = (.ok (), ⟨t', o⟩) := by
  obtain ⟨n, hn⟩ := exists_tries_left hk
  rw [writeRaw, hn, pushWrite_busyWrites h,
    pushWrite_of_not_busy d c n p ⟨t, o⟩ (by simp [hset])]
  simp [hset]

/-- A write whose first answer that is not busy is another failure, within the bound, fails
with that status. -/
theorem writeRaw_of_busyWrites_error {k : Nat} {s t t' : σ} {st : Status} (o : String)
    (h : BusyWrites d c p k s t) (hk : k < maxAttempts) (hst : st ≠ .commandRetry)
    (hset : d.set c.resource c.id p t = (.error st, t')) :
    (writeRaw d c p).run.run ⟨s, o⟩ = (.error (.command .write c.name st), ⟨t', o⟩) := by
  obtain ⟨n, hn⟩ := exists_tries_left hk
  rw [writeRaw, hn, pushWrite_busyWrites h,
    pushWrite_of_not_busy d c n p ⟨t, o⟩ (by simpa [hset] using hst)]
  simp [hset]

/-- A write the device answers busy `maxAttempts` times fails as busy. -/
theorem writeRaw_of_busyWrites_exhausted {s t : σ} (o : String)
    (h : BusyWrites d c p maxAttempts s t) :
    (writeRaw d c p).run.run ⟨s, o⟩ = (.error (.command .write c.name .commandRetry), ⟨t, o⟩) := by
  rw [writeRaw, ← Nat.add_zero maxAttempts, pushWrite_busyWrites h, pushWrite_zero]

end Writes

/-! ## How every read and write ends -/

/-- How a read of a command ends, from device state `s`, whatever the device answers. -/
structure ReadEnds (s : σ) (o : String) : Prop where
  /-- A device that fills its buffer is given `readLength` bytes at every read. -/
  buffers : d.FillsBuffer → ∀ k last t, BusyReads d c k (firstBuffer c) s last t →
    last.length = c.readLength
  /-- The first failed answer, within the bound, fails the read with its status. -/
  failed : ∀ k last t st t', BusyReads d c k (firstBuffer c) s last t → k < maxAttempts →
    d.get c.resource c.readId last t = (.error st, t') →
    (readRaw d c).run.run ⟨s, o⟩ = (.error (.command .read c.name st), ⟨t', o⟩)
  /-- The first answer with a zero status byte, within the bound, is returned without that
  byte: `payloadLength` bytes from a device that fills its buffer. -/
  ready : ∀ k last t rest t', BusyReads d c k (firstBuffer c) s last t → k < maxAttempts →
    d.get c.resource c.readId last t = (.ok (0 :: rest), t') →
    (readRaw d c).run.run ⟨s, o⟩ = (.ok rest, ⟨t', o⟩) ∧
      (d.FillsBuffer → rest.length = c.payloadLength)
  /-- The first answer with no status byte, within the bound, stops the read on the defect of
  reading one; a device that fills its buffer gives it only when the buffer wraps to no bytes. -/
  empty : ∀ k last t t', BusyReads d c k (firstBuffer c) s last t → k < maxAttempts →
    d.get c.resource c.readId last t = (.ok [], t') →
    (readRaw d c).run.run ⟨s, o⟩ = (.error (.abort emptyBufferRead), ⟨t', o⟩) ∧
      (d.FillsBuffer → c.payloadLength + 1 = Nat.pow 2 64)
  /-- After `maxAttempts` busy answers the read fails with the status byte of the last, or
  `controlError` for a byte that is no status. -/
  exhausted : ∀ last t, BusyReads d c maxAttempts (firstBuffer c) s last t →
    ∃ status rest, last = status :: rest ∧ status ≠ 0 ∧
      (readRaw d c).run.run ⟨s, o⟩ =
        (.error (.command .read c.name ((Status.ofCode? status.toNat).getD .controlError)),
          ⟨t, o⟩)
  /-- Every read is one of these: `maxAttempts` busy answers, or an earlier one not busy. -/
  decided : (∃ last t, BusyReads d c maxAttempts (firstBuffer c) s last t) ∨
    ∃ k < maxAttempts, ∃ last t, BusyReads d c k (firstBuffer c) s last t ∧
      ∀ status rest, (d.get c.resource c.readId last t).1 = .ok (status :: rest) → status = 0

/-- How a write of a payload to a command ends, from device state `s`, whatever the device
answers. -/
structure WriteEnds (p : List UInt8) (s : σ) (o : String) : Prop where
  /-- The first success, within the bound, is the write's. -/
  succeeded : ∀ k t t', BusyWrites d c p k s t → k < maxAttempts →
    d.set c.resource c.id p t = (.ok (), t') → (writeRaw d c p).run.run ⟨s, o⟩ = (.ok (), ⟨t', o⟩)
  /-- The first failure other than `commandRetry`, within the bound, fails the write with its
  status. -/
  failed : ∀ k t st t', BusyWrites d c p k s t → k < maxAttempts → st ≠ .commandRetry →
    d.set c.resource c.id p t = (.error st, t') →
    (writeRaw d c p).run.run ⟨s, o⟩ = (.error (.command .write c.name st), ⟨t', o⟩)
  /-- After `maxAttempts` busy answers the write fails as busy. -/
  exhausted : ∀ t, BusyWrites d c p maxAttempts s t →
    (writeRaw d c p).run.run ⟨s, o⟩ = (.error (.command .write c.name .commandRetry), ⟨t, o⟩)
  /-- Every write is one of these: `maxAttempts` busy answers, or an earlier one not busy. -/
  decided : (∃ t, BusyWrites d c p maxAttempts s t) ∨
    ∃ k < maxAttempts, ∃ t, BusyWrites d c p k s t ∧
      (d.set c.resource c.id p t).1 ≠ .error .commandRetry

/-- A read ends at the first answer that is not busy, or after `maxAttempts` busy ones. -/
theorem readEnds (s : σ) (o : String) : ReadEnds d c s o where
  buffers hfill _ _ _ h := by simpa using h.length_eq hfill
  failed _ _ _ _ _ h hk hget := readRaw_of_busyReads_error o h hk hget
  ready _ _ _ _ _ h hk hget :=
    ⟨readRaw_of_busyReads_ready o h hk hget, fun hfill => length_of_ready hfill h hget⟩
  empty _ _ _ _ h hk hget :=
    ⟨readRaw_of_busyReads_empty o h hk hget, fun hfill => payloadLength_of_empty hfill h hget⟩
  exhausted _ _ h := readRaw_of_busyReads_exhausted o h
  decided := BusyReads.exists_decided d c maxAttempts (firstBuffer c) s

/-- A write ends at the first answer that is not busy, or after `maxAttempts` busy ones. -/
theorem writeEnds (p : List UInt8) (s : σ) (o : String) : WriteEnds d c p s o where
  succeeded _ _ _ h hk hset := writeRaw_of_busyWrites_ok o h hk hset
  failed _ _ _ _ h hk hst hset := writeRaw_of_busyWrites_error o h hk hst hset
  exhausted _ h := writeRaw_of_busyWrites_exhausted o h
  decided := BusyWrites.exists_decided d c p maxAttempts s

/-- Reads and writes of every command, on every device and from every state, are retried at
most `maxAttempts` times and end as the device's answers decide. -/
theorem bounded_retries (p : List UInt8) (s : σ) (o : String) :
    ReadEnds d c s o ∧ WriteEnds d c p s o :=
  ⟨readEnds d c s o, writeEnds d c p s o⟩

/-! ## A read length that wraps -/

/-- A byte command of `2 ^ 64 - 1` values has a read length of no bytes: the status byte and the
payload wrap past the largest word. With no register file the file device refuses that buffer
with `controlError`, and the read fails so; the buffer of `payloadLength + 1` bytes, the status
byte and the payload, is refused as too long, with `dataLengthError`. -/
theorem wrapped_read_buffer_refused :
    let c := Command.make "BIG" 0 1 .uint8 .readOnly (Nat.pow 2 64 - 1) ""
    c.readLength = 0 ∧
      (readRaw fileDevice c).run.run ⟨{}, ""⟩ =
        (.error (.command .read c.name .controlError), ⟨{}, ""⟩) ∧
      (fileDevice.get c.resource c.readId (List.replicate (c.payloadLength + 1) 0) {}).1 =
        .error .dataLengthError := by
  intro c
  have hwrap : c.readLength = 0 := by decide
  have hname : WorkDir.IsName FileDevice.bufferFile := by decide
  have hmissing : ({} : WorkDir).read FileDevice.bufferFile = .error .notFound := by
    simp [WorkDir.read, WorkDir.resolve_name _ hname, WorkDir.isDirAt, WorkDir.lookup, hname.2.1, bind,
      Except.bind, throw, throwThe, MonadExceptOf.throw]
  have hget : fileDevice.get c.resource c.readId (firstBuffer c) {} = (.error .controlError, {}) := by
    rw [firstBuffer, hwrap]
    simp [fileDevice, FileDevice.load, hmissing]
  have hlong : (List.replicate (c.payloadLength + 1) (0 : UInt8)).length >
      FileDevice.bufferLength + 1 := by
    rw [List.length_replicate]
    decide
  refine ⟨hwrap, readRaw_of_busyReads_error "" (.nil _ _) (by decide) hget, ?_⟩
  simp only [fileDevice, hlong, if_true]

end VoiceBench.Control
