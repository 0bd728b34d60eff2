/-!
# Command-line grammars

A program's command line is a grammar: named options, at most one positional argument per
command, and subcommands that each take options of their own. Options marked global are
accepted by every subcommand as well; every command understands `-h`/`--help`, and the
program itself `-V`/`--version`.

An option either is a switch or takes one value, of a kind that says what text it accepts;
it may have a default and may require other options. The positional argument takes one
value or, when `many`, one or more. Options are listed in help by their `order`, then by
their key: the short name in lower case followed by `0` for a lower-case and `1` for an
upper-case letter, else the long name.
-/

namespace VoiceBench.Cli

/-- What text a value must be. -/
inductive ValueKind where
  /-- Any text. -/
  | text
  /-- A path: any text but the empty one. -/
  | path
  /-- A natural number of a machine word: an optional `+`, then decimal digits. -/
  | size
  /-- A natural number up to `max`: a signed 64-bit integer in range. -/
  | bounded (max : Nat)
  deriving DecidableEq, Repr

/-- A named option. -/
structure Opt where
  id : String
  long : String
  short : Option Char := none
  /-- The placeholder and kind of the value; `none` for a switch. -/
  value : Option (String × ValueKind) := none
  default : Option String := none
  help : String
  /-- The options that must be given with this one. -/
  requires : List String := []
  /-- The place in the help listing. -/
  order : Nat
  deriving Repr

/-- The positional argument of a command. -/
structure Positional where
  id : String
  valueName : String
  help : String
  required : Bool := true
  many : Bool := false
  kind : ValueKind := .text
  deriving Repr

/-- A subcommand. -/
structure Command where
  name : String
  about : String
  options : List Opt := []
  positional : Option Positional := none
  deriving Repr

/-- A program with subcommands, one of which must be given. -/
structure Program where
  name : String
  version : String
  about : String
  globals : List Opt := []
  commands : List Command := []
  deriving Repr

/-- The order of the options every command adds. -/
def builtinOrder : Nat := 999

/-- The help switch. -/
def helpOpt : Opt :=
  { id := "help", long := "help", short := some 'h', help := "Print help", order := builtinOrder }

/-- The version switch. -/
def versionOpt : Opt :=
  { id := "version", long := "version", short := some 'V', help := "Print version",
    order := builtinOrder }

/-- The name of the subcommand that prints help. -/
def helpCommandName : String := "help"

/-- What the help subcommand says of itself. -/
def helpCommandAbout : String := "Print this message or the help of the given subcommand(s)"

/-- The argument of the help subcommand. -/
def helpCommandTarget : Positional :=
  { id := "subcommand", valueName := "COMMAND", help := "Print help for the subcommand(s)",
    required := false, many := true }

namespace Opt

/-- Whether the option takes a value. -/
def takesValue (o : Opt) : Bool := o.value.isSome

/-- The option as named in messages: `--long <VALUE>`, or `--long` for a switch. -/
def display (o : Opt) : String :=
  "--" ++ o.long ++ match o.value with
    | some (name, _) => " <" ++ name ++ ">"
    | none => ""

/-- The key that orders options of equal `order` in help. -/
def sortKey (o : Opt) : String :=
  match o.short with
  | some c => String.ofList [c.toLower, if c.isLower then '0' else '1']
  | none => o.long

/-- Whether `o` comes before `p` in help. -/
def listedBefore (o p : Opt) : Bool :=
  o.order < p.order || (o.order == p.order && decide (o.sortKey < p.sortKey))

end Opt

/-- The positional argument as named in messages: `<NAME>` if required, `[NAME]` if not,
followed by `...` if it takes several values. -/
def Positional.display (p : Positional) : String :=
  (if p.required then "<" ++ p.valueName ++ ">" else "[" ++ p.valueName ++ "]") ++
    if p.many then "..." else ""

/-- One level of a command line: the program or one of its subcommands, with the options it
accepts in the order it knows them. -/
structure Level where
  /-- The words that name the level in usage lines: the program, then the subcommand. -/
  usageName : String
  about : String
  options : List Opt
  positional : Option Positional := none
  /-- The subcommands, the help subcommand last; empty below the program. -/
  commands : List Command := []
  /-- Whether a subcommand must follow. -/
  needsCommand : Bool := false
  /-- What the version switch prints, where there is one. -/
  versionText : String := ""
  /-- The arguments the level declares itself, in order: the program's global options at the
  program, the positional argument and own options at a subcommand. Usage lines may name
  them together as one group. -/
  group : List String := []
  deriving Repr

namespace Program

variable (prog : Program)

/-- The text `--version` prints. -/
def versionText : String := prog.name ++ " " ++ prog.version ++ "\n"

/-- The program's own level: its global options, help and version. -/
def top : Level where
  usageName := prog.name
  about := prog.about
  options := prog.globals ++ [helpOpt, versionOpt]
  commands := prog.commands
  needsCommand := true
  versionText := prog.versionText
  group := prog.globals.map (·.id)

/-- The level of a subcommand: its options, then the global ones, then help. -/
def levelOf (c : Command) : Level where
  usageName := prog.name ++ " " ++ c.name
  about := c.about
  options := c.options ++ prog.globals ++ [helpOpt]
  positional := c.positional
  group := (c.positional.map (·.id)).toList ++ c.options.map (·.id)

/-- The level of the help subcommand, which takes subcommand names and no options. -/
def helpLevel : Level where
  usageName := prog.name ++ " " ++ helpCommandName
  about := helpCommandAbout
  options := []
  positional := some helpCommandTarget

end Program

namespace Level

variable (l : Level)

/-- The option with a long name. -/
def byLong? (name : String) : Option Opt := l.options.find? (·.long == name)

/-- The option with a short name. -/
def byShort? (c : Char) : Option Opt := l.options.find? (·.short == some c)

/-- The option with an id. -/
def byId? (id : String) : Option Opt := l.options.find? (·.id == id)

/-- Whether an id names the positional argument. -/
def isPositional (id : String) : Bool := l.positional.any (·.id == id)

/-- How an argument is named in messages. -/
def display (id : String) : String :=
  match l.byId? id, l.positional with
  | some o, _ => o.display
  | none, some p => p.display
  | none, none => id

/-- The names of the subcommands, the help subcommand last; none below the program. -/
def commandNames : List String :=
  if l.commands.isEmpty then [] else l.commands.map (·.name) ++ [helpCommandName]

/-- The ids of the arguments that must always be given. -/
def requiredIds : List String :=
  match l.positional with
  | some p => if p.required then [p.id] else []
  | none => []

end Level

end VoiceBench.Cli
