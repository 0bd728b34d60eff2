import VoiceBench.Control.Host
import VoiceBench.Control.FileDevice

/-!
# Scripted sessions with the register device

A session is a list of steps run one after another against the register file of a working
directory: host requests (registering, reading, writing, executing a command line or a list
file, listing and dumping) and changes made to the register file from outside (setting it,
removing it, resetting it to zeros). `HostStep.run` is one step as a host computation, so its
output and the device state after it are those of the host, also when the step fails.
-/

namespace VoiceBench.Control

/-- One step of a session. -/
inductive HostStep where
  | init
  | execute (name : String) (args : List String)
  | read (name : String)
  | write (name : String) (args : List String)
  | list
  | dump
  /-- Runs the command lines of a file, first writing `text` to it when given. -/
  | runFile (file : String) (text : Option String)
  | setBuffer (bytes : List UInt8)
  | removeBuffer
  | resetBuffer

/-- What a step answers when it succeeds. -/
inductive HostAnswer where
  | done
  | values (vs : List Value)
  /-- The number of command lines a list file ran. -/
  | ran (lines : Nat)

/-- A file write as a host computation over a working directory. -/
def writeFile (path : String) (bytes : List UInt8) : HostM WorkDir Unit := do
  match (← get).device.write path bytes with
  | .ok w => modify fun r => { r with device := w }
  | .error e => throw (.io e)

/-- Changes the working directory without output. -/
def touchFiles (f : WorkDir → WorkDir) : HostM WorkDir HostAnswer := do
  modify fun r => { r with device := f r.device }
  pure .done

/-- Runs one step of a session. A list file that is not a file fails before it is read. -/
def HostStep.run (h : Host WorkDir) : HostStep → HostM WorkDir HostAnswer
  | .init => do h.init; pure .done
  | .execute name args => do h.execute name args; pure .done
  | .read name => .values <$> h.read name
  | .write name args => do h.write name args; pure .done
  | .list => do h.listCommands; pure .done
  | .dump => do h.dumpParams; pure .done
  | .runFile file text => do
    if let some t := text then writeFile file t.toUTF8.toList
    let w := (← get).device
    if !w.isFile file then throw (.pathNotFound file)
    match w.readText file with
    | .ok listing => .ran <$> h.runList listing
    | .error e => throw (.io e)
  | .setBuffer bytes => touchFiles (·.put FileDevice.bufferFile bytes)
  | .removeBuffer => touchFiles (·.erase FileDevice.bufferFile)
  | .resetBuffer => touchFiles (·.put FileDevice.bufferFile FileDevice.resetBuffer)

end VoiceBench.Control
