import VoiceBench.Dfu.Servicer
import VoiceBench.Dfu.Client

/-!
# Scripted sessions with the upgrade servicer

A session runs a list of steps against the simulated servicer and the image files of its
working directory. Raw steps are single transactions of the device, whose refusals are
answers rather than failures; the other steps are requests of the upgrade client, and a
download or upload also reads or writes the file it names. `runSession` stops after a step
that made the servicer halt, since nothing runs after that.
-/

namespace VoiceBench.Dfu

open Control

/-- One step of a session. -/
inductive DfuStep where
  | rawInit (info : String)
  | rawGet (res cmd : UInt8) (len : Nat)
  | rawSet (res cmd : UInt8) (payload : List UInt8)
  | init
  | status
  | state
  | clear
  | abort
  | setAlternate (alt : UInt8)
  | waitIdle
  /-- Downloads the image a file holds, first writing `data` to it when given. -/
  | download (path : String) (data : Option (List UInt8))
  /-- Uploads the selected image into a file that must not exist yet. -/
  | upload (dest : String)
  | reboot
  | version

/-- What a step answers when it succeeds. -/
inductive DfuAnswer where
  | done
  /-- The buffer a raw read returned. -/
  | bytes (data : List UInt8)
  /-- The status with which the device refused a raw transaction. -/
  | refused (status : Control.Status)
  | report (status : Status) (state : State)
  | state (state : State)
  /-- The number of image bytes transferred. -/
  | moved (count : Nat)
  | version (digits : List UInt8)
  deriving DecidableEq

/-- The upgrade client of the simulated servicer. -/
def servicerClient : Client (Servicer × WorkDir) := ⟨servicerDevice⟩

/-- A computation of a session over the servicer and its working directory. -/
abbrev SessionM := HostM (Servicer × WorkDir)

/-- A raw transaction: its result, or the status it was refused with. -/
def rawStep {α : Type} (f : Servicer × WorkDir → Except Control.Status α × (Servicer × WorkDir))
    (answer : α → DfuAnswer) : SessionM DfuAnswer := do
  match ← transact f with
  | .ok a => pure (answer a)
  | .error st => pure (.refused st)

/-- The image files. -/
def files : SessionM WorkDir := do pure (← get).device.2

/-- Writes a file of the working directory. -/
def putFile (path : String) (bytes : List UInt8) : SessionM Unit := do
  match (← files).write path bytes with
  | .ok w => modify fun r => { r with device := (r.device.1, w) }
  | .error e => throw (.io e)

/-- Runs one step of a session. -/
def DfuStep.run : DfuStep → SessionM DfuAnswer
  | .rawInit info => rawStep (servicerDevice.init info) fun _ => .done
  | .rawGet res cmd len => rawStep (servicerDevice.get res cmd (List.replicate len 0)) .bytes
  | .rawSet res cmd payload => rawStep (servicerDevice.set res cmd payload) fun _ => .done
  | .init => do servicerClient.init; pure .done
  | .status => do
    let (reported, current) ← servicerClient.getStatus
    pure (.report reported current)
  | .state => .state <$> servicerClient.getState
  | .clear => do servicerClient.clearStatus; pure .done
  | .abort => do servicerClient.abort; pure .done
  | .setAlternate alt => do servicerClient.setAlternate alt; pure .done
  | .waitIdle => do servicerClient.waitIdle; pure .done
  | .download path data => do
    if let some bytes := data then putFile path bytes
    let w ← files
    if !w.isFile path then throw (.pathNotFound path)
    match w.read path with
    | .ok bytes => .moved <$> servicerClient.download path bytes
    | .error e => throw (.io e)
  | .upload dest => do
    if (← files).pathExists dest then throw (.pathExists dest)
    let image ← servicerClient.upload dest
    putFile dest image
    pure (.moved image.length)
  | .reboot => do servicerClient.reboot; pure .done
  | .version => .version <$> servicerClient.version

/-- What one step of a session left: its answer or failure, the text it wrote and the
servicer afterwards. -/
structure DfuReport where
  result : Except Error DfuAnswer
  output : String
  servicer : Servicer

/-- Runs the steps of a session in order, each starting with no output, and stops after a
step that halts the servicer; the reports and the working directory at the end. -/
def runSession : List DfuStep → Servicer × WorkDir → List DfuReport × WorkDir
  | [], (_, w) => ([], w)
  | step :: rest, sw =>
    let (result, run) := ((step.run).run { device := sw }).run
    let report : DfuReport := { result, output := run.output, servicer := run.device.1 }
    if run.device.1.halted.isSome then ([report], run.device.2)
    else
      let (reports, w) := runSession rest run.device
      (report :: reports, w)

end VoiceBench.Dfu
