import VoiceBench.Control.Status
import VoiceBench.Control.ValueType
import VoiceBench.Dfu.Basic
import VoiceBench.WorkDir

/-!
# Why a control operation fails

Every way a host or firmware-upgrade operation can fail, each with the data its message
needs. `Error.message` is the text the tools print and `Error.exitCode` the status they exit
with: the device's status for a failed transaction or registration, 2 for a value the device
would not accept, 101 for a defect that stops the tool outright (`abort`, with the message of
the defect), 255 otherwise.
-/

namespace VoiceBench.Control

/-- A failed control operation. -/
inductive Error where
  /-- No command of the map has this (uppercased) name; the nearest listed one, if any. -/
  | unknownCommand (name : String) (suggestion : Option String)
  /-- The number of arguments fits neither reading nor writing the command. -/
  | argCount (name : String) (mode : AccessMode) (expected given : Nat)
  /-- A well-formed value outside the range of its type. -/
  | outOfTypeRange (type : ValueType) (text : String)
  /-- A text that is no value of the type. -/
  | invalidValue (type : ValueType) (text : String)
  /-- A value outside every accepted range of the command. -/
  | outOfRange (name value ranges : String)
  /-- Text commands cannot be written. -/
  | charWrite
  /-- The device refused a transaction. -/
  | command (access : Access) (name : String) (status : Status)
  /-- The device refused registration. -/
  | deviceInit (status : Status)
  | unknownProtocol (text : String)
  | invalidMap (reason : String)
  | mapRead (path : String) (cause : IoError)
  /-- A command map file that is no valid map; the reader's explanation. -/
  | mapParse (path : String) (detail : String)
  /-- A firmware transfer ended in an error status. -/
  | dfu (status : Dfu.Status) (state : Dfu.State)
  | missingPath (option : String)
  | pathNotFound (path : String)
  | pathExists (path : String)
  | usage (text : String)
  | io (cause : IoError)
  /-- A defect stopped the tool: an index past the end of a buffer. -/
  | abort (message : String)
  deriving Repr, DecidableEq, Inhabited

namespace Error

/-- The message for a wrong number of arguments, by access mode. -/
def argCountMessage (name : String) (mode : AccessMode) (expected given : Nat) : String :=
  match mode with
  | .readOnly => s!"Command: {name} is read-only, so it does not require any arguments."
  | .writeOnly =>
    s!"Command: {name} is write-only and expects {expected} argument(s), \n{given} are given."
  | .readWrite =>
    s!"Command: {name} is a read/write command.\n" ++
      "If you want to read do not give any arguments to this command.\n" ++
      s!"If you want to write give {expected} argument(s) to this command, {given} are given."

/-- The text the tools print for a failure. -/
def message : Error → String
  | unknownCommand name suggestion =>
    s!"Command {name} does not exist." ++
      ((suggestion.map fun s => s!"\nMaybe you meant {s}.").getD "")
  | argCount name mode expected given => argCountMessage name mode expected given
  | outOfTypeRange type _ => s!"Value given is out of range of {type.name} type"
  | invalidValue type text => s!"Value '{text}' is not a valid {type.name}"
  | outOfRange name value ranges => s!"Value {value} is outside the valid range of {name}: {ranges}"
  | charWrite => "TYPE_CHAR commands can only be READ_ONLY"
  | command access name status =>
    s!"{access.name} command {name} returned control_ret_t error {status.code}, {status.name}"
  | deviceInit status => s!"Could not connect to the device: error {status.code}, {status.name}"
  | unknownProtocol text => s!"unknown protocol '{text}', expected one of i2c, spi, usb"
  | invalidMap reason => s!"invalid command map: {reason}"
  | mapRead path cause => s!"failed to read command map {path}: {cause.message}"
  | mapParse path detail => s!"failed to parse command map {path}: {detail}"
  | dfu status state => s!"DFU operation failed: status {status.name}, state {state.name}"
  | missingPath option => s!"Error: missing file path for {option}"
  | pathNotFound path => s!"Error: File at path '{path}' not found"
  | pathExists path => s!"Error: File at path '{path}' already exists"
  | usage text => text
  | io cause => s!"IO error: {cause.message}"
  | abort message => message

/-- The exit status of a tool that stops on this failure. -/
def exitCode : Error → Nat
  | command _ _ status => status.code
  | deviceInit status => status.code
  | outOfTypeRange .. | invalidValue .. | outOfRange .. => Status.badCommand.code
  | abort _ => 101
  | _ => 255

/-- The name of the failure's cause, as reports spell it. -/
def kind : Error → String
  | unknownCommand .. => "UnknownCommand"
  | argCount .. => "ArgCount"
  | outOfTypeRange .. => "OutOfTypeRange"
  | invalidValue .. => "InvalidValue"
  | outOfRange .. => "OutOfRange"
  | charWrite => "CharWrite"
  | command .. => "Command"
  | deviceInit .. => "DeviceInit"
  | unknownProtocol .. => "UnknownProtocol"
  | invalidMap .. => "InvalidMap"
  | mapRead .. => "MapRead"
  | mapParse .. => "MapParse"
  | dfu .. => "Dfu"
  | missingPath .. => "MissingPath"
  | pathNotFound .. => "PathNotFound"
  | pathExists .. => "PathExists"
  | usage .. => "Usage"
  | io .. => "Io"
  | abort .. => "panic"

end Error

end VoiceBench.Control
