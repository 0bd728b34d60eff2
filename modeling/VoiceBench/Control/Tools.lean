import VoiceBench.Program
import VoiceBench.Control.Args
import VoiceBench.Control.Host
import VoiceBench.Control.FileDevice
import VoiceBench.Control.MapFile
import VoiceBench.Dfu.Servicer
import VoiceBench.Dfu.Client

/-!
# The control tools

The host tool reads and writes device parameters by name; the firmware tool transfers images
to and from the device and reboots it. Both run against the simulated devices of the working
directory: the register file for the host tool and the upgrade servicer's image files for the
firmware tool. A failure is printed on standard error and ends the run with the failure's exit
status; what was printed before it stays printed.
-/

namespace VoiceBench.Control

/-- The version the tools report. -/
def toolVersion : String := "0.1.0"

/-- The help screen of the host tool. -/
def hostHelp : String :=
  let usage := "usage: fs_host [ -u <protocol> ] [ -cmp <command map> ] [ -br ] [ command | option ]\n" ++
    "\n" ++
    s!"Current application version is {toolVersion}.\n" ++
    "You can use --use or -u option to specify protocol you want to use.\n" ++
    "Default control protocol is I2C."
  formatHelp usage hostOptions

/-- The help screen of the firmware tool. -/
def dfuHelp : String :=
  let usage := "usage: fs_dfu [ -u <protocol> ] [ --verbose ] command\n" ++
    "\n" ++
    s!"Current application version is {toolVersion}.\n" ++
    "You can use --use or -u option to specify protocol you want to use.\n" ++
    "Default control protocol is I2C."
  formatHelp usage dfuOptions

/-- The command map a file holds. -/
def loadMap (toml : Toml.Codec) (w : WorkDir) (path : String) : Except Error CommandMap :=
  match w.readText path with
  | .error e => .error (.mapRead path e)
  | .ok text => CommandMap.ofText toml text path

/-- The run that ends with a failure after printing some output. -/
def failedRun (out : String) (e : Error) (w : WorkDir) : ProgramRun :=
  { stdout := out, stderr := e.message ++ "\n", exitCode := e.exitCode, files := w }

/-- The run of a host computation: its output, and its failure if any. -/
def finishRun {σ : Type} (m : HostM σ Unit) (s : σ) (files : σ → WorkDir) (out : String) :
    ProgramRun :=
  let (r, run) := (m.run { device := s, output := out }).run
  match r with
  | .ok () => { stdout := run.output, files := files run.device }
  | .error e => failedRun run.output e (files run.device)

/-- The host tool run with its arguments in a working directory, its map files read by a
TOML library. -/
def hostTool (toml : Toml.Codec) (args : List String) (w : WorkDir) : ProgramRun :=
  match HostArgs.parse args with
  | .error e => failedRun "" e w
  | .ok a =>
    match a.action with
    | .hint => { stdout := noArgsHint ++ "\n", files := w }
    | .help => { stdout := hostHelp, files := w }
    | .version => { stdout := toolVersion ++ "\n", files := w }
    | action =>
      let map := match a.commandMap with
        | some path => loadMap toml w path
        | none => .ok CommandMap.testMap
      match map with
      | .error e => failedRun "" e w
      | .ok map =>
        let host : Host WorkDir := { device := fileDevice, map, bypass := a.bypass }
        match action with
        | .listCommands => { stdout := host.listing, files := w }
        | _ =>
          let body : HostM WorkDir Unit := do
            host.init
            match action with
            | .dumpParams => host.dumpParams
            | .executeList path => do
              let files := (← get).device
              if !files.isFile path then throw (.pathNotFound path)
              match files.readText path with
              | .error e => throw (.io e)
              | .ok text => discard (host.runList text)
            | .command name args => host.execute name args
            | _ => pure ()
          finishRun body w id ""

/-- The firmware tool run with its arguments in a working directory. -/
def dfuTool (args : List String) (w : WorkDir) : ProgramRun :=
  match DfuArgs.parse args with
  | .error e => failedRun "" e w
  | .ok a =>
    match a.action with
    | .hint => { stdout := noArgsHint ++ "\n", files := w }
    | .help => { stdout := dfuHelp, files := w }
    | .appVersion => { stdout := toolVersion ++ "\n", files := w }
    | .download path =>
      if !w.isFile path then failedRun "" (.pathNotFound path) w else dfuSession a w
    | .uploadFactory path | .uploadUpgrade path =>
      if w.pathExists path then failedRun "" (.pathExists path) w else dfuSession a w
    | _ => dfuSession a w
where
  /-- The part of a firmware run that talks to the device. -/
  dfuSession (a : DfuArgs) (w : WorkDir) : ProgramRun :=
    let cl : Dfu.Client (Dfu.Servicer × WorkDir) := ⟨Dfu.servicerDevice⟩
    let files : Dfu.Client (Dfu.Servicer × WorkDir) → HostM (Dfu.Servicer × WorkDir) WorkDir :=
      fun _ => do pure (← get).device.2
    let body : HostM (Dfu.Servicer × WorkDir) Unit := do
      cl.init
      if a.action = .version then
        let v ← cl.version
        emit s!"DFU_GETVERSION: {v.getD 0 0} {v.getD 1 0} {v.getD 2 0}"
      else
        let alt : UInt8 := match a.action with
          | .uploadFactory _ => UInt8.ofNat Dfu.altFactory
          | _ => UInt8.ofNat Dfu.altUpgrade
        cl.setAlternate alt
        cl.waitIdle
        match a.action with
        | .download path => do
          let w ← files cl
          if !w.isFile path then throw (.pathNotFound path)
          match w.read path with
          | .ok bytes => discard (cl.download path bytes)
          | .error e => throw (.io e)
        | .uploadFactory path | .uploadUpgrade path => do
          if (← files cl).pathExists path then throw (.pathExists path)
          let image ← cl.upload path
          match (← files cl).write path image with
          | .ok w => modify fun r => { r with device := (r.device.1, w) }
          | .error e => throw (.io e)
        | .reboot => cl.reboot
        | _ => pure ()
    let start := if a.verbose then "Verbose mode enabled\n" else ""
    finishRun body ({}, w) (·.2) start

end VoiceBench.Control
