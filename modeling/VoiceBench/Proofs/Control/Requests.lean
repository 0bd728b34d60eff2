import Mathlib
import VoiceBench.Control.Host
import VoiceBench.Proofs.Checks

/-!
# Running host requests

A host computation is run from a `Run` (the device state and the text written) and gives an
outcome and the `Run` after it. This module gives the equations of such runs: `pure` and
`throw` change nothing (`run_pure`, `run_throw`), sequencing runs the continuation from where
the first part stopped unless it failed (`run_bind`), a lifted outcome changes nothing
(`run_liftResult_bind`) and a transaction threads the device state (`run_transact`).

On these rest the request lemmas:

* a polled read whose first answer has a zero status byte returns the rest of the answer
  (`pollRead_of_ready`, `readRaw_of_ready`);
* a write goes to the device once when the device never answers that it is busy, and its
  outcome is the device's (`writeRaw_run_of_not_busy`);
* a named write makes every check before it reaches the device. `Host.checkWrite` lists them:
  lookup, access by the number of arguments, reading the arguments, and the ranges unless they
  are bypassed. A write runs as its checks followed by one raw write, and a failed check leaves
  the state as it was (`Host.write_run`);
* with arguments, executing a command line is writing it (`Host.execute_run_of_ne_nil`);
* a read of a readable command the device answers at once decodes that answer
  (`Host.read_run_of_ready`).

A device can be wrapped so that it logs each exchange with its outcome
(`Device.recording`); the log then counts the requests a computation makes.
-/

namespace VoiceBench.Control

variable {σ α β : Type}

/-! ## The run of a host computation -/

@[simp] theorem run_pure (a : α) (r : Run σ) : (pure a : HostM σ α).run.run r = (.ok a, r) := rfl

@[simp] theorem run_throw (e : Error) (r : Run σ) :
    (throw e : HostM σ α).run.run r = (.error e, r) := rfl

@[simp] theorem run_pure_bind (a : α) (f : α → HostM σ β) (r : Run σ) :
    (pure a >>= f).run.run r = (f a).run.run r := rfl

@[simp] theorem run_throw_bind (e : Error) (f : α → HostM σ β) (r : Run σ) :
    (throw e >>= f).run.run r = (.error e, r) := rfl

/-- Sequencing runs the continuation from the `Run` the first part leaves, unless it failed. -/
theorem run_bind (x : HostM σ α) (f : α → HostM σ β) (r : Run σ) :
    (x >>= f).run.run r = match x.run.run r with
      | (.ok a, r') => (f a).run.run r'
      | (.error e, r') => (.error e, r') := by
  rcases hx : x.run.run r with ⟨e | a, r'⟩
  · simp only [bind, ExceptT.bind, ExceptT.mk, ExceptT.bindCont, StateT.bind, ExceptT.run,
      StateT.run] at hx ⊢
    rw [hx]
    rfl
  · simp only [bind, ExceptT.bind, ExceptT.mk, ExceptT.bindCont, StateT.bind, ExceptT.run,
      StateT.run] at hx ⊢
    rw [hx]

theorem run_bind_of_ok {x : HostM σ α} {f : α → HostM σ β} {r r' : Run σ} {a : α}
    (h : x.run.run r = (.ok a, r')) : (x >>= f).run.run r = (f a).run.run r' := by
  rw [run_bind, h]

theorem run_bind_of_error {x : HostM σ α} {f : α → HostM σ β} {r r' : Run σ} {e : Error}
    (h : x.run.run r = (.error e, r')) : (x >>= f).run.run r = (.error e, r') := by
  rw [run_bind, h]

@[simp] theorem run_liftResult (x : Except Error α) (r : Run σ) :
    (liftResult x : HostM σ α).run.run r = (x, r) := by
  cases x <;> rfl

/-- A lifted outcome changes nothing: it fails there or goes on with its value. -/
theorem run_liftResult_bind (x : Except Error α) (f : α → HostM σ β) (r : Run σ) :
    (liftResult x >>= f).run.run r = match x with
      | .ok a => (f a).run.run r
      | .error e => (.error e, r) := by
  cases x <;> rfl

/-- A transaction always succeeds as a host computation; its outcome is the device's. -/
theorem run_transact (step : σ → Except Status α × σ) (r : Run σ) :
    (transact step).run.run r = (.ok (step r.device).1, { r with device := (step r.device).2 }) :=
  rfl

/-- Writing text appends it to the output and changes nothing else. -/
@[simp] theorem run_emitText (text : String) (r : Run σ) :
    (emitText text : HostM σ Unit).run.run r = (.ok (), { r with output := r.output ++ text }) :=
  rfl

@[simp] theorem run_emit (line : String) (r : Run σ) :
    (emit line : HostM σ Unit).run.run r =
      (.ok (), { r with output := r.output ++ (line ++ "\n") }) :=
  rfl

/-! ## Requests to a device -/

section Device

variable (d : Device σ) (c : Command)

/-- A poll whose answer has a zero status byte returns the answer without it. -/
theorem pollRead_of_ready (n : Nat) {data out : List UInt8} {s s' : σ} (o : String)
    (h : d.get c.resource c.readId data s = (.ok (0 :: out), s')) :
    (pollRead d c (n + 1) data).run.run ⟨s, o⟩ = (.ok out, ⟨s', o⟩) := by
  rw [pollRead, run_bind_of_ok (run_transact _ _)]
  simp [h]
  rfl

/-- A read the device answers at once with a zero status byte returns the rest. -/
theorem readRaw_of_ready {out : List UInt8} {s s' : σ} (o : String)
    (h : d.get c.resource c.readId (List.replicate c.readLength 0) s =
      (.ok (0 :: out), s')) :
    (readRaw d c).run.run ⟨s, o⟩ = (.ok out, ⟨s', o⟩) :=
  pollRead_of_ready d c _ o h

/-- A device that does not answer busy decides a write at its first attempt. -/
theorem pushWrite_of_not_busy (n : Nat) (p : List UInt8) (r : Run σ)
    (hbusy : (d.set c.resource c.id p r.device).1 ≠ .error .commandRetry) :
    (pushWrite d c p (n + 1)).run.run r = match d.set c.resource c.id p r.device with
      | (.ok (), s') => (.ok (), { r with device := s' })
      | (.error st, s') => (.error (.command .write c.name st), { r with device := s' }) := by
  rw [pushWrite, run_bind_of_ok (run_transact _ _)]
  rcases hset : d.set c.resource c.id p r.device with ⟨st | ⟨⟩, s'⟩
  · rw [hset] at hbusy
    cases st <;> first | exact absurd rfl hbusy | rfl
  · rfl

/-- A write to a device that does not answer busy is one transaction: it succeeds or fails
with the device's status, and the device state is the one the transaction leaves. -/
theorem writeRaw_run_of_not_busy (p : List UInt8) (r : Run σ)
    (hbusy : (d.set c.resource c.id p r.device).1 ≠ .error .commandRetry) :
    (writeRaw d c p).run.run r = match d.set c.resource c.id p r.device with
      | (.ok (), s') => (.ok (), { r with device := s' })
      | (.error st, s') => (.error (.command .write c.name st), { r with device := s' }) :=
  pushWrite_of_not_busy d c _ p r hbusy

end Device

/-! ## Recording the exchanges with a device -/

/-- A transaction made with a device, with its outcome. -/
inductive Exchange where
  | init (info : String) (result : Except Status Unit)
  | get (res cmd : UInt8) (result : Except Status (List UInt8))
  | set (res cmd : UInt8) (payload : List UInt8) (result : Except Status Unit)
  deriving DecidableEq

/-- The device that answers as `d` does and also logs every exchange made with it. -/
def Device.recording (d : Device σ) : Device (σ × List Exchange) where
  init info sl := let (r, s) := d.init info sl.1; (r, s, sl.2 ++ [.init info r])
  get res cmd buf sl := let (r, s) := d.get res cmd buf sl.1; (r, s, sl.2 ++ [.get res cmd r])
  set res cmd p sl := let (r, s) := d.set res cmd p sl.1; (r, s, sl.2 ++ [.set res cmd p r])

@[simp] theorem Device.recording_get (d : Device σ) (res cmd : UInt8) (buf : List UInt8)
    (s : σ) (log : List Exchange) :
    d.recording.get res cmd buf (s, log) =
      ((d.get res cmd buf s).1, (d.get res cmd buf s).2,
        log ++ [.get res cmd (d.get res cmd buf s).1]) :=
  rfl

/-! ## Access by the number of arguments -/

namespace Command

/-- Without arguments a command is read exactly when it is readable. -/
theorem accessFor_zero (c : Command) :
    c.accessFor 0 = if c.mode.readable then .ok .read else
      if 0 = c.count ∧ c.mode.writable then .ok .write else .error (c.argCountError 0) := by
  simp [accessFor]

/-- Arguments never read a command: they write it when there are as many as its values and it
is writable, and are refused otherwise. -/
theorem accessFor_of_ne_zero (c : Command) {given : Nat} (h : given ≠ 0) :
    c.accessFor given = if given = c.count ∧ c.mode.writable then .ok .write
      else .error (c.argCountError given) := by
  simp [accessFor, h]

/-- A command with values is written exactly by as many arguments as it has values, and only
if it is writable. -/
theorem accessFor_eq_write_iff (c : Command) (hcount : c.count ≠ 0) (given : Nat) :
    c.accessFor given = .ok .write ↔ given = c.count ∧ c.mode.writable = true := by
  by_cases hzero : given = 0
  · subst hzero
    have hne : (0 = c.count) = False := eq_false (Ne.symm hcount)
    rw [accessFor_zero]
    split <;> simp [hne]
  · rw [accessFor_of_ne_zero c hzero]
    split <;> simp_all

/-- A read id names the command it was made from, when the id leaves the read bit clear. -/
theorem readId_clear {c : Command} (h : c.id &&& readBit = 0) :
    c.readId &&& ~~~readBit = c.id := by
  unfold readId
  generalize c.id = x at h ⊢
  revert x
  decide +kernel

end Command

/-! ## Named requests -/

/-- A name is looked up exactly when it finds a command. -/
theorem CommandMap.lookup_eq_ok_iff {m : CommandMap} {name : String} {c : Command} :
    m.lookup name = .ok c ↔ m.find? name = some c := by
  unfold CommandMap.lookup
  split <;> simp_all

namespace Host

/-- The checks a write of text arguments makes before it reaches the device, in order: the
command of the name, access by the number of arguments, the arguments read as the command's
type, and the ranges unless they are bypassed. It gives the command and the values to send. -/
def checkWrite (h : Host σ) (name : String) (args : List String) :
    Except Error (Command × List Value) := do
  let c ← h.map.lookup name
  let access ← c.accessFor args.length
  if access ≠ .write then throw (c.argCountError args.length)
  let values ← c.parseValues args
  if !h.bypass then c.checkRanges values
  pure (c, values)

/-- The checks of a write pass exactly when each of them does: the name finds the command, the
arguments write it, it holds no text, every argument reads as its type, and the ranges are
bypassed or hold. -/
theorem checkWrite_eq_ok_iff_access (h : Host σ) {name : String} {args : List String}
    {c : Command} {values : List Value} :
    h.checkWrite name args = .ok (c, values) ↔
      h.map.find? name = some c ∧ c.accessFor args.length = .ok .write ∧ c.type ≠ .char ∧
        args.mapM c.type.parse = .ok values ∧ (h.bypass = true ∨ c.checkRanges values = .ok ()) := by
  cases hb : h.bypass <;>
  simp [checkWrite, bind_eq_ok_iff, map_eq_ok_iff, CommandMap.lookup_eq_ok_iff, ite_eq_iff,
    throw_ne_ok, Command.parseValues, hb, Unique.exists_iff, and_assoc]

/-- A write is its checks, then one raw write of the values' payload; a failed check fails the
write and leaves the state as it was. -/
theorem write_run (h : Host σ) (name : String) (args : List String) (r : Run σ) :
    (h.write name args).run.run r = match h.checkWrite name args with
      | .ok (c, values) => (writeRaw h.device c (Command.encode values)).run.run r
      | .error e => (.error e, r) := by
  rw [write, command, run_liftResult_bind]
  -- one case split per check, in the order the write makes them
  cases hl : h.map.lookup name with
  | error e => simp [checkWrite, hl, bind, Except.bind]
  | ok c =>
    simp only
    rw [run_liftResult_bind]
    cases ha : c.accessFor args.length with
    | error e => simp [checkWrite, hl, ha, bind, Except.bind]
    | ok a =>
      cases a with
      | read =>
        have hcheck : h.checkWrite name args = .error (c.argCountError args.length) := by
          simp [checkWrite, hl, ha, bind, Except.bind, throw, throwThe, MonadExceptOf.throw]
        simp only [hcheck, ne_eq, reduceCtorEq, not_false_eq_true, if_true, run_throw_bind]
      | write =>
        simp only [ne_eq, not_true_eq_false, if_false]
        rw [run_liftResult_bind]
        cases hp : c.parseValues args with
        | error e => simp [checkWrite, hl, ha, hp, bind, Except.bind]
        | ok values =>
          simp only
          cases hb : h.bypass
          · simp only [Bool.not_false, if_true]
            rw [run_liftResult_bind]
            cases hr : c.checkRanges values with
            | error e => simp [checkWrite, hl, ha, hp, hb, hr, bind, Except.bind]
            | ok u => simp [checkWrite, hl, ha, hp, hb, hr, bind, Except.bind, pure, Except.pure]
          · simp [checkWrite, hl, ha, hp, hb, bind, Except.bind, pure, Except.pure]

/-- A command line with arguments is a write. -/
theorem execute_run_of_ne_nil (h : Host σ) (name : String) {args : List String} (hargs : args ≠ [])
    (r : Run σ) : (h.execute name args).run.run r = (h.write name args).run.run r := by
  have hlen : args.length ≠ 0 := by simpa using hargs
  rw [execute, command, run_liftResult_bind]
  cases hl : h.map.lookup name with
  | error e => simp [write_run, checkWrite, hl, bind, Except.bind]
  | ok c =>
    simp only
    rw [run_liftResult_bind, Command.accessFor_of_ne_zero c hlen]
    by_cases hw : args.length = c.count ∧ c.mode.writable = true
    · rw [if_pos hw]
    · rw [if_neg hw]
      simp [write_run, checkWrite, hl, Command.accessFor_of_ne_zero c hlen, hw, bind,
        Except.bind]

/-- A read of a readable command that the device answers at once with a zero status byte
decodes the rest of the answer. -/
theorem read_run_of_ready (h : Host σ) {name : String} {c : Command}
    (hl : h.map.lookup name = .ok c) (hread : c.mode.readable = true) {out : List UInt8}
    {s s' : σ} (o : String)
    (hget : h.device.get c.resource c.readId (List.replicate c.readLength 0) s =
      (.ok (0 :: out), s')) :
    (h.read name).run.run ⟨s, o⟩ = (c.decode out, ⟨s', o⟩) := by
  rw [read, command, run_liftResult_bind, hl]
  simp only
  rw [run_liftResult_bind, Command.accessFor_zero, if_pos hread]
  simp only
  rw [run_bind_of_ok (readRaw_of_ready h.device c o hget), run_liftResult]

end Host

end VoiceBench.Control
