import VoiceBench.Control.Device
import VoiceBench.Control.CommandMap
import VoiceBench.Text.Blank

/-!
# Running commands on a device

The host side of the control protocol. A read polls the device until it answers a zero status
byte, at most ten thousand times, with a buffer of `readLength` bytes, the payload length plus
one as a machine word: when that wraps to zero, an answer leaves no status byte to read and the
read stops on the defect. A write is repeated while the device answers that it is busy, at most
as often. On top of these, `Host` runs named commands of a command map: reading,
writing values given as text (checked against the type and, unless bypassed, the command's
ranges), executing a command line, a list of command lines, listing the commands and dumping
every readable one.

A host computation keeps the device state and the text written so far; a failure keeps both,
since what happened before it has happened.
-/

namespace VoiceBench.Control

/-- The attempts before a busy read or write is given up. -/
def maxAttempts : Nat := 10000

/-- Where a host computation stands: the device's state and the text written. -/
structure Run (σ : Type) where
  device : σ
  output : String := ""
  deriving DecidableEq

/-- A host computation over a device with states `σ`: it may fail, keeping what happened. -/
abbrev HostM (σ : Type) := ExceptT Error (StateM (Run σ))

/-- One transaction of a device, its state threaded. -/
def transact {σ α : Type} (step : σ → Except Status α × σ) : HostM σ (Except Status α) :=
  fun r =>
    let (result, s) := step r.device
    (.ok result, { r with device := s })

/-- Writes text. -/
def emitText {σ : Type} (text : String) : HostM σ Unit :=
  modify fun r => { r with output := r.output ++ text }

/-- Writes a line of text. -/
def emit {σ : Type} (line : String) : HostM σ Unit := emitText (line ++ "\n")

/-- A pure outcome lifted into a host computation. -/
def liftResult {σ α : Type} : Except Error α → HostM σ α
  | .ok a => pure a
  | .error e => throw e

/-- The defect of reading the status byte of a buffer of no bytes. -/
def emptyBufferRead : String := "index out of bounds: the len is 0 but the index is 0"

/-- Polls a read of a command up to `attempts` more times with the buffer of the last answer;
the status byte of the last answer decides the failure when they run out. An answer with no
status byte, all a buffer of no bytes can hold, stops the read on the defect of reading it. -/
def pollRead {σ : Type} (dev : Device σ) (c : Command) : Nat → List UInt8 → HostM σ (List UInt8)
  | 0, [] => throw (.abort emptyBufferRead)
  | 0, status :: _ =>
    throw (.command .read c.name ((Status.ofCode? status.toNat).getD .controlError))
  | n + 1, data => do
    match ← transact (dev.get c.resource c.readId data) with
    | .error st => throw (.command .read c.name st)
    | .ok [] => throw (.abort emptyBufferRead)
    | .ok (status :: rest) =>
      if status = 0 then pure rest else pollRead dev c n (status :: rest)

/-- The payload of a command read from the device, without its status byte. -/
def readRaw {σ : Type} (dev : Device σ) (c : Command) : HostM σ (List UInt8) :=
  pollRead dev c maxAttempts (List.replicate c.readLength 0)

/-- Sends a write up to `attempts` more times while the device answers that it is busy. -/
def pushWrite {σ : Type} (dev : Device σ) (c : Command) (payload : List UInt8) :
    Nat → HostM σ Unit
  | 0 => throw (.command .write c.name .commandRetry)
  | n + 1 => do
    match ← transact (dev.set c.resource c.id payload) with
    | .ok () => pure ()
    | .error .commandRetry => pushWrite dev c payload n
    | .error st => throw (.command .write c.name st)

/-- Writes a payload to a command, retrying while the device is busy. -/
def writeRaw {σ : Type} (dev : Device σ) (c : Command) (payload : List UInt8) : HostM σ Unit :=
  pushWrite dev c payload maxAttempts

/-- A host: a device, the command map it speaks and whether written values skip the range
check. -/
structure Host (σ : Type) where
  device : Device σ
  map : CommandMap
  bypass : Bool := false

namespace Host

variable {σ : Type} (h : Host σ)

/-- The command of a name, or the failure suggesting the nearest one. -/
def command (name : String) : HostM σ Command := liftResult (h.map.lookup name)

/-- Registers with the device under the map's tag. -/
def init : HostM σ Unit := do
  match ← transact (h.device.init h.map.info) with
  | .ok () => pure ()
  | .error st => throw (.deviceInit st)

/-- The current values of a readable command. -/
def read (name : String) : HostM σ (List Value) := do
  let c ← h.command name
  let _ ← liftResult (c.accessFor 0)
  let raw ← readRaw h.device c
  liftResult (c.decode raw)

/-- Writes values given as text to a writable command. -/
def write (name : String) (args : List String) : HostM σ Unit := do
  let c ← h.command name
  let access ← liftResult (c.accessFor args.length)
  if access ≠ .write then throw (c.argCountError args.length)
  let values ← liftResult (c.parseValues args)
  if !h.bypass then liftResult (c.checkRanges values)
  writeRaw h.device c (Command.encode values)

/-- Runs one command line: without arguments it reads and prints, with arguments it writes. -/
def execute (name : String) (args : List String) : HostM σ Unit := do
  let c ← h.command name
  match ← liftResult (c.accessFor args.length) with
  | .read => do
    let raw ← readRaw h.device c
    let values ← liftResult (c.decode raw)
    emit (c.formatValues values)
  | .write => h.write name args

/-- Runs every non-blank line of a command list, stopping at the first failure; the number
of lines run. -/
def runList (text : String) : HostM σ Nat :=
  (Text.lines text).foldlM (fun n line =>
    match Text.words line with
    | [] => pure n
    | name :: args => do
      h.execute name args
      pure (n + 1)) 0

/-- Pads a text on the right to a width in characters. -/
def padRight (s : String) (width : Nat) : String :=
  s ++ String.ofList (List.replicate (width - s.length) ' ')

/-- Pads a text on the left to a width in characters. -/
def padLeft (s : String) (width : Nat) : String :=
  String.ofList (List.replicate (width - s.length) ' ') ++ s

/-- The listing line of a command, its name padded to a width. -/
def listLine (width : Nat) (c : Command) : String :=
  let info := if c.ranges.isEmpty then c.info else c.info ++ " Valid range(s): " ++ c.rangesText
  padRight c.name width ++ "  " ++ padRight c.mode.name 10 ++ "  " ++ padRight c.type.name 7 ++
    "  " ++ padLeft (toString c.count) 3 ++ "  " ++ info

/-- The listing of the listed commands: name, access mode, type, number of values and help. -/
def listing : String :=
  let listed := h.map.listed
  let width := listed.foldl (fun w c => max w c.name.utf8ByteSize) 0
  String.join (listed.map fun c => listLine width c ++ "\n")

/-- Prints the listing. -/
def listCommands : HostM σ Unit :=
  modify fun r => { r with output := r.output ++ h.listing }

/-- Reads and prints every listed readable command. -/
def dumpParams : HostM σ Unit :=
  (h.map.listed.filter (·.mode.readable)).forM fun c => do
    let raw ← readRaw h.device c
    let values ← liftResult (c.decode raw)
    emit (c.formatValues values)

end Host

end VoiceBench.Control
