/-!
# Command-line errors

Why a command line is refused, and the report printed for it: `error: ` and the reason, then
suggestions, each on a line of its own after a blank line, then the usage line after another
blank line, and last a pointer to `--help` where the level has that option. Errors about one
value name no usage.
-/

namespace VoiceBench.Cli

/-- A similar name that was probably meant. -/
inductive Suggestion where
  /-- A similar option of the same command. -/
  | option (name : String)
  /-- The option exists in a subcommand given later on the line. -/
  | inCommand (name command : String)
  deriving DecidableEq, Repr

/-- Why a command line is refused. -/
inductive CliError where
  /-- An option or word that no argument accepts; `asValueTip` suggests `--` before it. -/
  | unknownArgument (arg : String) (suggestion : Option Suggestion) (asValueTip : Bool)
      (usage : String)
  /-- A word where a subcommand must stand, with the similar subcommand names. -/
  | unknownCommand (word : String) (similar : List String) (usage : String)
  /-- A subcommand name after `--`. -/
  | commandAfterEscape (command : String) (usage : String)
  /-- A name after `help` that is no subcommand; the help subcommand offers no `--help`. -/
  | unknownTopic (word : String) (usage : String)
  | missingValue (arg : String)
  | invalidValue (arg value reason : String)
  | repeated (arg : String) (usage : String)
  | unexpectedValue (value arg : String) (usage : String)
  | valueCount (arg : String) (expected actual : Nat) (usage : String)
  | missingArguments (args : List String) (usage : String)
  | missingCommand (program : String) (commands : List String) (usage : String)
  deriving DecidableEq, Repr

namespace CliError

/-- The reason, after `error: `. -/
def reason : CliError → String
  | unknownArgument arg .. => s!"unexpected argument '{arg}' found"
  | unknownCommand word .. => s!"unrecognized subcommand '{word}'"
  | commandAfterEscape command _ => s!"unexpected argument '{command}' found"
  | unknownTopic word _ => s!"unrecognized subcommand '{word}'"
  | missingValue arg => s!"a value is required for '{arg}' but none was supplied"
  | invalidValue arg value reason => s!"invalid value '{value}' for '{arg}': {reason}"
  | repeated arg _ => s!"the argument '{arg}' cannot be used multiple times"
  | unexpectedValue value arg _ => s!"unexpected value '{value}' for '{arg}' found; no more were expected"
  | valueCount arg expected actual _ =>
    s!"{expected} values required for '{arg}' but {actual}" ++
      if actual > 1 then " were provided" else " was provided"
  | missingArguments args _ =>
    "the following required arguments were not provided:" ++
      String.join (args.map ("\n  " ++ ·))
  | missingCommand program commands _ =>
    s!"'{program}' requires a subcommand but one was not provided\n  [subcommands: " ++
      ", ".intercalate commands ++ "]"

/-- The names the report offers as probably meant, as one line. -/
def similarLine : CliError → Option String
  | unknownArgument _ (some (.option name)) .. => some s!"a similar argument exists: '{name}'"
  | unknownCommand _ [name] _ => some s!"a similar subcommand exists: '{name}'"
  | unknownCommand _ (n :: ns) _ =>
    some ("some similar subcommands exist: " ++ ", ".intercalate ((n :: ns).map (s!"'{·}'")))
  | _ => none

/-- Further advice, one line each. -/
def tips : CliError → List String
  | unknownArgument arg suggestion asValueTip _ =>
    (if asValueTip then [s!"to pass '{arg}' as a value, use '-- {arg}'"] else []) ++
      match suggestion with
      | some (.inCommand name command) => [s!"'{command} {name}' exists"]
      | _ => []
  | commandAfterEscape command _ =>
    [s!"subcommand '{command}' exists; to use it, remove the '--' before it"]
  | _ => []

/-- The usage line the report ends with, if any. -/
def usage? : CliError → Option String
  | unknownArgument _ _ _ u | unknownCommand _ _ u | commandAfterEscape _ u | unknownTopic _ u
  | repeated _ u
  | unexpectedValue _ _ u | valueCount _ _ _ u | missingArguments _ u | missingCommand _ _ u =>
    some u
  | missingValue _ | invalidValue .. => none

/-- The report printed for the error. -/
def render (e : CliError) : String :=
  let similar := match e.similarLine with
    | some line => "\n\n  tip: " ++ line
    | none => ""
  let tips := match e.tips with
    | [] => ""
    | ts => (if e.similarLine.isSome then "" else "\n") ++ String.join (ts.map ("\n  tip: " ++ ·))
  let usage := match e.usage? with
    | some u => "\n\n" ++ u
    | none => ""
  let pointer := match e with
    | unknownTopic .. => "\n"
    | _ => "\n\nFor more information, try '--help'.\n"
  "error: " ++ e.reason ++ similar ++ tips ++ usage ++ pointer

end CliError

end VoiceBench.Cli
