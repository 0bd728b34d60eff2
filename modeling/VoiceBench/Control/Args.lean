import VoiceBench.Control.Device

/-!
# Command lines of the control tools

Both tools take options with multi-letter short forms (`-cmp`, `-br`, `-uf`), so a token is
matched against an option table, ignoring ASCII case, rather than split into letters.

The host tool reads options until the first token that does not start with a dash: that token
names a command and every later token, dashes and all, is one of its arguments. `--use` and
`--command-map` take the next token as their value whatever it looks like;
`--execute-command-list` takes the next token only if it does not start with a dash, and
`commands.txt` otherwise. The firmware tool reads options only; its three transfer options
take the next token as a path. In both, only the first action given counts.
-/

namespace VoiceBench.Control

/-- One entry of an option table: long form, short form and help text. -/
structure OptionSpec where
  long : String
  short : String
  help : String
  deriving Inhabited, Repr, BEq

namespace OptionSpec

/-- Whether a token names the option, ignoring ASCII case. -/
def names (o : OptionSpec) (token : String) : Bool :=
  let t := token.map Char.toLower
  t == o.long || t == o.short

end OptionSpec

/-- The options of the host tool. -/
def hostOptions : List OptionSpec := [
  ⟨"--help", "-h", "display this information"⟩,
  ⟨"--version", "-v", "print the current version of this application"⟩,
  ⟨"--list-commands", "-l", "print the list of commands"⟩,
  ⟨"--use", "-u",
    "use specific hardware protocol, I2C, SPI and USB are available to use, I2C is the default"⟩,
  ⟨"--command-map", "-cmp", "use a command map TOML file, the built-in test map is the default"⟩,
  ⟨"--bypass-range-check", "-br", "bypass the range check of the values written with a command"⟩,
  ⟨"--dump-params", "-d", "print all the parameters that can be read"⟩,
  ⟨"--execute-command-list", "-e",
    "execute commands from a file, one command per line, commands.txt is the default"⟩]

/-- The options of the firmware tool. -/
def dfuOptions : List OptionSpec := [
  ⟨"--help", "-h", "display this information"⟩,
  ⟨"--app-version", "-av", "print the version of this application"⟩,
  ⟨"--use", "-u", "use specific hardware protocol, I2C, SPI and USB are available to use"⟩,
  ⟨"--verbose", "-vvv", "enable debug prints"⟩,
  ⟨"--version", "-v", "read the version on the device"⟩,
  ⟨"--download", "-d",
    "download upgrade image stored in the specified path, the path is relative to the working dir"⟩,
  ⟨"--upload-factory", "-uf",
    "upload factory image and save it in the specified path, the path is relative to the working dir"⟩,
  ⟨"--upload-upgrade", "-uu",
    "upload upgrade image and save it in the specified path, the path is relative to the working dir"⟩,
  ⟨"--reboot", "-r", "reboot device"⟩]

/-- The first option of a table a token names. -/
def findOption (table : List OptionSpec) (token : String) : Option OptionSpec :=
  table.find? (·.names token)

/-- Pads a text on the right to a width in characters. -/
def padTo (s : String) (width : Nat) : String :=
  s ++ String.ofList (List.replicate (width - s.length) ' ')

/-- The help screen: the usage text, then a block per option with the short and long forms in
columns. -/
def formatHelp (usage : String) (table : List OptionSpec) : String :=
  let shortWidth := table.foldl (fun w o => max w o.short.utf8ByteSize) 0
  let longWidth := table.foldl (fun w o => max w o.long.utf8ByteSize) 0
  usage ++ "\n\nOptions:\n" ++ String.join (table.map fun o =>
    "  " ++ padTo o.short shortWidth ++ "  " ++ padTo o.long longWidth ++ "  " ++ o.help ++ "\n\n")

/-- The command list run when `--execute-command-list` names none. -/
def defaultCommandList : String := "commands.txt"

/-- The hint printed when a tool runs without arguments. -/
def noArgsHint : String :=
  "Use --help to get the list of options for this application.\n" ++
    "Or use --list-commands to print the list of commands and their info."

/-- What the host tool was asked to do. -/
inductive HostAction where
  | hint
  | help
  | version
  | listCommands
  | dumpParams
  | executeList (path : String)
  | command (name : String) (args : List String)
  deriving Inhabited, Repr, BEq, DecidableEq

/-- A parsed host command line. -/
structure HostArgs where
  protocol : Protocol := .i2c
  commandMap : Option String := none
  bypass : Bool := false
  action : HostAction := .hint
  deriving Inhabited, Repr

namespace HostArgs

/-- The arguments with an action set, unless one was set before. -/
def setAction (a : HostArgs) (action : HostAction) : HostArgs :=
  if a.action = .hint then { a with action } else a

/-- The failure for an option given without its value. -/
def needsValue (option : String) : Error := .usage s!"Error: option {option} requires a value"

/-- The host command line from a token on, given what was parsed before it. -/
def parseFrom (a : HostArgs) : List String → Except Error HostArgs
  | [] => .ok a
  | token :: rest =>
    if !token.startsWith "-" then .ok (a.setAction (.command token rest))
    else
      match findOption hostOptions token with
      | none => .error (.usage s!"Option {token} does not exist.\n{noArgsHint}")
      | some o =>
        match o.long with
        | "--help" => parseFrom (a.setAction .help) rest
        | "--version" => parseFrom (a.setAction .version) rest
        | "--list-commands" => parseFrom (a.setAction .listCommands) rest
        | "--dump-params" => parseFrom (a.setAction .dumpParams) rest
        | "--use" =>
          match rest with
          | v :: more => do
            let protocol ← Protocol.parse v
            parseFrom { a with protocol } more
          | [] => .error (needsValue o.long)
        | "--command-map" =>
          match rest with
          | v :: more => parseFrom { a with commandMap := some v } more
          | [] => .error (needsValue o.long)
        | "--bypass-range-check" => parseFrom { a with bypass := true } rest
        | "--execute-command-list" =>
          match rest with
          | v :: more =>
            if !v.startsWith "-" then parseFrom (a.setAction (.executeList v)) more
            else parseFrom (a.setAction (.executeList defaultCommandList)) (v :: more)
          | [] => parseFrom (a.setAction (.executeList defaultCommandList)) []
        | other => .error (.usage s!"Option {other} is not supported")
termination_by tokens => tokens.length

/-- The host command line, the program name excluded. -/
def parse (tokens : List String) : Except Error HostArgs := parseFrom {} tokens

end HostArgs

/-- What the firmware tool was asked to do. -/
inductive DfuAction where
  | hint
  | help
  | appVersion
  | version
  | download (path : String)
  | uploadFactory (path : String)
  | uploadUpgrade (path : String)
  | reboot
  deriving Inhabited, Repr, BEq, DecidableEq

/-- A parsed firmware command line. -/
structure DfuArgs where
  protocol : Protocol := .i2c
  verbose : Bool := false
  action : DfuAction := .hint
  deriving Inhabited, Repr

namespace DfuArgs

/-- The arguments with an action set, unless one was set before. -/
def setAction (a : DfuArgs) (action : DfuAction) : DfuArgs :=
  if a.action = .hint then { a with action } else a

/-- The firmware command line from a token on, given what was parsed before it. -/
def parseFrom (a : DfuArgs) : List String → Except Error DfuArgs
  | [] => .ok a
  | token :: rest =>
    match findOption dfuOptions token with
    | none => .error (Error.usage (s!"Option {token} does not exist.\n" ++
        "Use --help to get the list of options for this application."))
    | some o =>
      let withPath (make : String → DfuAction) : Except Error DfuArgs :=
        match rest with
        | p :: more => parseFrom (a.setAction (make p)) more
        | [] => .error (.missingPath o.long)
      match o.long with
      | "--help" => parseFrom (a.setAction .help) rest
      | "--app-version" => parseFrom (a.setAction .appVersion) rest
      | "--version" => parseFrom (a.setAction .version) rest
      | "--reboot" => parseFrom (a.setAction .reboot) rest
      | "--download" => withPath .download
      | "--upload-factory" => withPath .uploadFactory
      | "--upload-upgrade" => withPath .uploadUpgrade
      | "--use" =>
        match rest with
        | v :: more => do
          let protocol ← Protocol.parse v
          parseFrom { a with protocol } more
        | [] => .error (HostArgs.needsValue o.long)
      | "--verbose" => parseFrom { a with verbose := true } rest
      | other => .error (.usage s!"Option {other} is not supported")

/-- The firmware command line, the program name excluded. -/
def parse (tokens : List String) : Except Error DfuArgs := parseFrom {} tokens

end DfuArgs

end VoiceBench.Control
