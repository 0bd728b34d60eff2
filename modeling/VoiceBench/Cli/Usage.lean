import VoiceBench.Cli.Spec

/-!
# Usage lines and help screens

A usage line names a level, then `[OPTIONS]` when nothing more specific is shown and the
level has options beyond help and version, then the options that are required or were used,
then the positional argument, then `<COMMAND>` where a subcommand must follow. The options
shown are those of `required`, each preceded by the options it requires in turn, then those
of `used`, each once, in that order.

A help screen is the description, the usage line and the sections `Commands:`,
`Arguments:` and `Options:` that apply, each entry's help aligned two columns after the
widest entry of its section.
-/

namespace VoiceBench.Cli

/-- `n` spaces. -/
def spaces (n : Nat) : String := String.ofList (List.replicate n ' ')

namespace Level

variable (l : Level)

/-- The options `id` requires, directly or through options that require others in turn,
found by depth-first search; `fuel` bounds the steps. -/
def requiresFrom : Nat → List String → List String → List String → List String
  | 0, _, _, found => found
  | _ + 1, [], _, found => found
  | fuel + 1, a :: stack, seen, found =>
    if a ∈ seen then requiresFrom fuel stack seen found
    else
      let reqs := ((l.byId? a).map (·.requires)).getD []
      let deeper := reqs.filter fun r => ((l.byId? r).map (!·.requires.isEmpty)).getD false
      requiresFrom fuel (deeper.reverse ++ stack) (seen ++ [a]) (found ++ reqs)

/-- The options an argument requires, directly or indirectly. -/
def requiresOf (id : String) : List String :=
  l.requiresFrom (l.options.foldr (fun o n => o.requires.length + n) 1) [id] [] []

/-- Each required argument preceded by what it requires. -/
def unrollRequired (required : List String) : List String :=
  required.flatMap fun a => l.requiresOf a ++ [a]

/-- Whether the level has options worth an `[OPTIONS]` tag. -/
def hasOptions : Bool := l.options.any fun o => o.id != helpOpt.id && o.id != versionOpt.id

/-- The level's group as usage lines name it: its members between angle brackets, separated
by bars, the positional argument by its bare value name. -/
def groupDisplay : String :=
  "<" ++ "|".intercalate (l.group.map fun id =>
    match l.byId? id, l.positional with
    | some o, _ => o.display
    | none, some p => p.valueName
    | none, none => id) ++ ">"

/-- The usage line for the arguments `required` and `used`; when `grouped`, the level's group
stands after the options in place of its members. -/
def usage (required used : List String) (grouped : Bool) : String :=
  let named := l.unrollRequired required ++ used
  let inGroup (id : String) : Bool := grouped && l.group.contains id
  let opts := (named.eraseDups.filter (!inGroup ·)).filterMap fun id => (l.byId? id).map Opt.display
  let tag := if used.isEmpty && !grouped && l.hasOptions then ["[OPTIONS]"] else []
  let groups := if grouped then [l.groupDisplay] else []
  let pos := match l.positional with
    | some p => if inGroup p.id then [] else [{ p with required := named.contains p.id }.display]
    | none => []
  let cmd := if l.needsCommand then ["<COMMAND>"] else []
  " ".intercalate ([l.usageName] ++ tag ++ opts ++ groups ++ pos ++ cmd)

/-- The usage line of the help screen. -/
def helpUsage : String := l.usage l.requiredIds [] false

/-- The usage line with its heading. -/
def usageLine (required used : List String) (grouped : Bool) : String :=
  "Usage: " ++ l.usage required used grouped

end Level

/-- The help text of an option, with its default. -/
def Opt.helpText (o : Opt) : String :=
  match o.default with
  | some d => if o.help.isEmpty then "[default: " ++ d ++ "]" else o.help ++ " [default: " ++ d ++ "]"
  | none => o.help

/-- The entries of a section, each name padded two columns past the widest. -/
def helpSection (heading : String) (entries : List (String × String)) : String :=
  let width := entries.foldl (fun w (name, _) => max w name.length) 2
  heading ++ ":\n" ++ "\n".intercalate (entries.map fun (name, help) =>
    "  " ++ name ++ spaces (width + 2 - name.length) ++ help)

/-- An option as listed in help: its short name or four blanks, then its long name and
value. -/
def Opt.listed (o : Opt) : String :=
  (match o.short with
    | some c => "-" ++ String.singleton c ++ ", "
    | none => "    ") ++ o.display

namespace Level

variable (l : Level)

/-- The options in help order. -/
def sortedOptions : List Opt := l.options.mergeSort fun o p => o.listedBefore p

/-- The help screen of a level. -/
def helpText : String :=
  let commands :=
    if l.commands.isEmpty then []
    else [helpSection "Commands" (l.commands.map (fun c => (c.name, c.about)) ++
      [(helpCommandName, helpCommandAbout)])]
  let args := match l.positional with
    | some p => [helpSection "Arguments" [(p.display, p.help)]]
    | none => []
  let opts :=
    if l.options.isEmpty then []
    else [helpSection "Options" (l.sortedOptions.map fun o => (o.listed, o.helpText))]
  let about := if l.about.isEmpty then "" else l.about ++ "\n\n"
  about ++ "Usage: " ++ l.helpUsage ++ "\n\n" ++ "\n\n".intercalate (commands ++ args ++ opts) ++
    "\n"

end Level

end VoiceBench.Cli
