import VoiceBench.Cli.Usage
import VoiceBench.Cli.Error
import VoiceBench.Text.Similarity

/-!
# Reading a command line

`Program.parse` reads the words of a command line left to right against a grammar.

* At the program level a subcommand name starts the subcommand, which reads the rest of the
  line, unless an option waits for its value, which the name then is; `help` instead prints
  the help of the subcommands named after it.
* `--` makes every later word a positional value.
* `--name` and `--name=value` name an option by its long name, `-abc` a cluster of short
  names, the last of which may take the rest of the word, after an optional `=`, as its value.
  An option that takes a value and has none attached takes the next word, unless that word is
  an option itself.
* Other words are values of the positional argument.

Values are held back until the next option, the next positional value of another argument
or the end of the line, and only then checked, so an error about a value is raised at that
point. An option takes one value; the words after it are positional values again. Help and version stop the reading where
they stand. At the end the required arguments are checked, the subcommand's before the
program's; a program line with nothing on it prints the help as an error.
-/

namespace VoiceBench.Cli

/-- The arguments given at a level, in the order they were taken, with their values; a switch
has the single value `true`. -/
abbrev Given := List (String × List String)

/-- The values of an argument. -/
def Given.values? (g : Given) (id : String) : Option (List String) := g.lookup id

/-- The first value of an argument. -/
def Given.text? (g : Given) (id : String) : Option String := (g.lookup id).bind List.head?

/-- Whether an argument was given. -/
def Given.has (g : Given) (id : String) : Bool := (g.lookup id).isSome

/-- What a command line asks for. -/
inductive Request where
  /-- Run a subcommand; the arguments of the program and of the subcommand, defaults
  included. -/
  | run (program : Given) (command : String) (args : Given)
  /-- Print a text and succeed: a help screen or the version. -/
  | show (text : String)
  /-- Print the help screen as a failure: the line held nothing. -/
  | showAsError (text : String)
  | refuse (e : CliError)
  deriving Repr

/-- Why reading stopped before the end. -/
inductive Halt where
  | show (text : String)
  | refuse (e : CliError)

/-- What the next word must be. -/
inductive Expect where
  | anything
  /-- The value of an option. -/
  | valueOf (id : String)
  /-- More values of the positional argument, if no option intervenes. -/
  | morePositional (id : String)

/-- Where the reading of one level stands. -/
structure Scan where
  given : Given := []
  /-- An argument whose values are held back, with them. -/
  pending : Option (String × List String) := none
  expect : Expect := .anything
  /-- Whether the single-valued positional argument has its value. -/
  filled : Bool := false
  /-- Whether `--` was read. -/
  escaped : Bool := false

/-- Whether the next word is taken as an argument's value: an option waits for its value, or
a positional argument that takes many has begun. A subcommand name in that place is a value. -/
def Scan.awaitsValue (s : Scan) : Bool :=
  match s.expect with
  | .anything => false
  | _ => true

/-- The reason a text is no decimal integer of the language's integer syntax. -/
inductive NumberError where
  | empty
  | invalidDigit
  | tooLarge
  | tooSmall

/-- The text of a number error. -/
def NumberError.message : NumberError → String
  | .empty => "cannot parse integer from empty string"
  | .invalidDigit => "invalid digit found in string"
  | .tooLarge => "number too large to fit in target type"
  | .tooSmall => "number too small to fit in target type"

/-- Reads decimal digits onto `acc` while the magnitude stays at most `limit`; a non-digit
fails before the digit after it can overflow. -/
def readDigits (limit : Nat) (overflow : NumberError) : List Char → Nat → Except NumberError Nat
  | [], acc => .ok acc
  | c :: cs, acc =>
    if !c.isDigit then .error .invalidDigit
    else
      let next := acc * 10 + (c.toNat - '0'.toNat)
      if next > limit then .error overflow else readDigits limit overflow cs next

/-- A natural number below `2 ^ 64`: an optional `+`, then digits. -/
def readWord (s : String) : Except NumberError Nat :=
  match s.toList with
  | [] => .error .empty
  | ['+'] | ['-'] => .error .invalidDigit
  | '+' :: ds => readDigits (Nat.pow 2 64 - 1) .tooLarge ds 0
  | ds => readDigits (Nat.pow 2 64 - 1) .tooLarge ds 0

/-- A signed 64-bit integer: an optional sign, then digits. -/
def readInt64 (s : String) : Except NumberError Int :=
  match s.toList with
  | [] => .error .empty
  | ['+'] | ['-'] => .error .invalidDigit
  | '+' :: ds => (Int.ofNat ·) <$> readDigits (Nat.pow 2 63 - 1) .tooLarge ds 0
  | '-' :: ds => (fun n => -(n : Int)) <$> readDigits (Nat.pow 2 63) .tooSmall ds 0
  | ds => (Int.ofNat ·) <$> readDigits (Nat.pow 2 63 - 1) .tooLarge ds 0

/-- Why a value is refused: it is empty where text is needed, or it is not of its kind. -/
inductive ValueProblem where
  | empty
  | invalid (reason : String)

/-- A value checked against its kind: the value as it is kept, or why it is refused. -/
def ValueKind.check (kind : ValueKind) (text : String) : Except ValueProblem String :=
  match kind with
  | .text => .ok text
  | .path => if text.isEmpty then .error .empty else .ok text
  | .size =>
    match readWord text with
    | .ok n => .ok (toString n)
    | .error e => .error (.invalid e.message)
  | .bounded max =>
    match readInt64 text with
    | .ok v =>
      if 0 ≤ v ∧ v ≤ max then .ok (toString v) else .error (.invalid s!"{v} is not in 0..={max}")
    | .error e => .error (.invalid e.message)

/-- The report for a refused value of an argument. -/
def ValueProblem.report (arg value : String) : ValueProblem → CliError
  | .empty => .missingValue arg
  | .invalid reason => .invalidValue arg value reason

/-- Whether a word names a long option. -/
def isLongWord (w : String) : Bool := w.startsWith "--" && w != "--"

/-- Whether a word is a cluster of short options. -/
def isShortWord (w : String) : Bool := w.startsWith "-" && !w.startsWith "--" && w != "-"

namespace Level

variable (l : Level)

/-- The usage line that names nothing given. -/
def plainUsage : String := l.usageLine l.requiredIds [] false

/-- The ids given so far that usage lines show: all but the required ones. -/
def shownIds (s : Scan) : List String :=
  (s.given.map (·.1)).filter fun id => !l.requiredIds.contains id

/-- Takes an argument with its values: checks their number, then acts: help and version stop,
a second occurrence is refused, values are checked against their kind. -/
def accept (s : Scan) (id : String) (values : List String) : Except Halt Scan :=
  match l.byId? id with
  | some o =>
    match o.value with
    | some (_, kind) =>
      if values.isEmpty then .error (.refuse (.missingValue o.display))
      else if values.length ≠ 1 then
        .error (.refuse (.valueCount o.display 1 values.length l.plainUsage))
      else if s.given.any (·.1 == id) then .error (.refuse (.repeated o.display l.plainUsage))
      else
        match values.mapM kind.check with
        | .ok vs => .ok { s with given := s.given ++ [(id, vs)] }
        | .error problem => .error (.refuse (problem.report o.display (values.headD "")))
    | none =>
      if id == helpOpt.id then .error (.show l.helpText)
      else if id == versionOpt.id then .error (.show l.versionText)
      else if s.given.any (·.1 == id) then .error (.refuse (.repeated o.display l.plainUsage))
      else .ok { s with given := s.given ++ [(id, ["true"])] }
  | none =>
    match l.positional with
    | some p =>
      if values.isEmpty then .error (.refuse (.missingValue p.display))
      else if !p.many && values.length ≠ 1 then
        .error (.refuse (.valueCount p.display 1 values.length l.plainUsage))
      else
        match values.mapM p.kind.check with
        | .error problem =>
          let bad := (values.find? fun v => (p.kind.check v).toBool == false).getD ""
          .error (.refuse (problem.report p.display bad))
        | .ok vs =>
          if s.given.any (·.1 == id) then
            .ok { s with given := s.given.map fun (k, old) => if k == id then (k, old ++ vs) else (k, old) }
          else .ok { s with given := s.given ++ [(id, vs)] }
    | none => .ok s

/-- Takes the held-back argument, if any. -/
def resolve (s : Scan) : Except Halt Scan :=
  match s.pending with
  | none => .ok s
  | some (id, values) => l.accept { s with pending := none } id values

/-- Takes an argument after the held-back one. -/
def react (s : Scan) (id : String) (values : List String) : Except Halt Scan := do
  let s ← l.resolve s
  l.accept s id values

/-- The held-back argument taken for the sake of a report about something else: a refused
value still counts as given, a repeated argument no longer does. -/
def resolveQuietly (s : Scan) : Scan :=
  match s.pending with
  | none => s
  | some (id, values) =>
    let s' := { s with pending := none }
    match l.accept s' id values with
    | .ok t => t
    | .error (.refuse (.invalidValue ..)) => { s' with given := s'.given ++ [(id, [])] }
    | .error (.refuse (.missingValue ..)) =>
      if values.isEmpty then s' else { s' with given := s'.given ++ [(id, [])] }
    | .error (.refuse (.repeated ..)) => { s' with given := s'.given.filter (·.1 != id) }
    | .error _ => s'

/-- The report for a word that is neither an option nor a value. -/
def strayWord (s : Scan) (word : String) : CliError :=
  if s.escaped && l.commandNames.contains word then .commandAfterEscape word l.plainUsage
  else if !l.commands.isEmpty then .unknownCommand word (Text.similar word l.commandNames) l.plainUsage
  else
    .unknownArgument word none
      (!s.escaped && l.positional.isSome && (isLongWord word || isShortWord word)) l.plainUsage

/-- Whether a member of the level's group has been taken. -/
def groupTaken (s : Scan) : Bool := s.given.any fun (id, _) => l.group.contains id

/-- A value of the positional argument, or the report for a word with no place. Values of a
positional argument that takes many are held back together; anything else held back is taken
first. -/
def takePositional (s : Scan) (word : String) : Except Halt Scan :=
  match l.positional with
  | some p =>
    if p.many || !s.filled then
      match s.pending with
      | some (id, vs) =>
        if p.many && id == p.id then
          .ok { s with pending := some (id, vs ++ [word]), expect := .morePositional p.id }
        else do
          let s ← l.resolve s
          pure { s with pending := some (p.id, [word]),
                        expect := if p.many then .morePositional p.id else .anything,
                        filled := s.filled || !p.many }
      | none =>
        .ok { s with pending := some (p.id, [word]),
                     expect := if p.many then .morePositional p.id else .anything,
                     filled := s.filled || !p.many }
    else .error (.refuse (l.strayWord (l.resolveQuietly s) word))
  | none => .error (.refuse (l.strayWord (l.resolveQuietly s) word))

end Level

namespace Program

variable (prog : Program)

/-- The long option of a subcommand most similar to a name, for a subcommand named later on
the line: the one named first wins. -/
def suggestInCommand (name : String) (rest : List String) : Option Suggestion :=
  let found := prog.commands.filterMap fun c =>
    match (Text.similar name ((prog.levelOf c).options.map (·.long))).getLast?,
        rest.findIdx? (· == c.name) with
    | some long, some at_ => some (at_, Suggestion.inCommand ("--" ++ long) c.name)
    | _, _ => none
  (found.foldl (fun best cand =>
    match best with
    | some b => if cand.1 < b.1 then some cand else some b
    | none => some cand) none).map (·.2)

/-- The report for an unknown long option. -/
def unknownLong (l : Level) (s : Scan) (name : String) (rest : List String) : CliError :=
  let s := l.resolveQuietly s
  let similar := (Text.similar name (l.options.map (·.long))).getLast?
  let suggestion : Option Suggestion :=
    match similar with
    | some long => some (.option ("--" ++ long))
    | none => if l.commands.isEmpty then none else prog.suggestInCommand name rest
  let suggestedId := similar.bind fun long => (l.byLong? long).map (·.id)
  let given := s.given.map (·.1)
  let shown := (given ++ (suggestedId.filter (!given.contains ·)).toList).filter
    (!l.requiredIds.contains ·)
  .unknownArgument ("--" ++ name) suggestion
    (suggestion.isNone && !s.escaped && l.positional.isSome) (l.usageLine l.requiredIds shown false)

/-- Reads a long option word (without its dashes). -/
def readLong (l : Level) (s : Scan) (body : String) (rest : List String) : Except Halt Scan :=
  let (name, attached) := match body.splitOn "=" with
    | [] => (body, none)
    | n :: vs => if vs.isEmpty then (n, none) else (n, some ("=".intercalate vs))
  match l.byLong? name with
  | some o =>
    if o.takesValue then
      match attached with
      | some v => do
        let s ← l.react s o.id [v]
        pure { s with expect := .anything }
      | none => do
        let s ← l.resolve s
        pure { s with pending := some (o.id, []), expect := .valueOf o.id }
    else
      match attached with
      | some v => .error (.refuse (.unexpectedValue v o.display
          (l.usageLine l.requiredIds (l.shownIds s ++ [o.id]) (l.groupTaken s))))
      | none => do
        let s ← l.react s o.id []
        pure { s with expect := .anything }
  | none => .error (.refuse (prog.unknownLong l s name rest))

/-- Reads the letters of a short option cluster. -/
def readShort (l : Level) : List Char → Scan → Except Halt Scan
  | [], s => .ok s
  | c :: cs, s =>
    match l.byShort? c with
    | some o =>
      if o.takesValue then
        match cs with
        | [] => do
          let s ← l.resolve s
          pure { s with pending := some (o.id, []), expect := .valueOf o.id }
        | '=' :: vs => do
          let s ← l.react s o.id [String.ofList vs]
          pure { s with expect := .anything }
        | vs => do
          let s ← l.react s o.id [String.ofList vs]
          pure { s with expect := .anything }
      else do
        let s ← l.react s o.id []
        readShort l cs { s with expect := .anything }
    | none =>
      let s := l.resolveQuietly s
      .error (.refuse (.unknownArgument ("-" ++ String.singleton c) none
        (!s.escaped && l.positional.isSome) l.plainUsage))

/-- The help screen of the subcommands named after `help`. -/
def helpFor (names : List String) : Halt :=
  let step (acc : Except CliError Level) (name : String) : Except CliError Level := do
    let l ← acc
    if name == helpCommandName && !l.commands.isEmpty then pure prog.helpLevel
    else
      match l.commands.find? (·.name == name) with
      | some c => pure (prog.levelOf c)
      | none =>
        if (l.byId? helpOpt.id).isSome then throw (.unknownCommand name [] l.plainUsage)
        else throw (.unknownTopic name l.plainUsage)
  match names.foldl step (.ok prog.top) with
  | .ok l => .show l.helpText
  | .error e => .refuse e

/-- Reads the words of a level; stops at a subcommand name, returning it with the words
after it. -/
def scanWords (l : Level) : List String → Scan → Except Halt (Scan × Option (String × List String))
  | [], s => .ok (s, none)
  | w :: rest, s =>
    if s.escaped then do
      let s ← l.takePositional s w
      scanWords l rest s
    else if s.awaitsValue == false && l.commandNames.contains w then
      if w == helpCommandName then .error (prog.helpFor rest) else .ok (s, some (w, rest))
    else if w == "--" then scanWords l rest { s with escaped := true }
    else if isLongWord w then do
      let s ← prog.readLong l s (w.drop 2).toString rest
      scanWords l rest s
    else if isShortWord w then do
      let s ← readShort l (w.drop 1).toString.toList s
      scanWords l rest s
    else
      match s.expect with
      | .valueOf id => do
        let pending := match s.pending with
          | some (pid, vs) => (pid, vs ++ [w])
          | none => (id, [w])
        scanWords l rest { s with pending := some pending, expect := .anything }
      | _ => do
        let s ← l.takePositional s w
        scanWords l rest s

/-- The required arguments of a level checked at the end: the required positional argument
and everything the given options require. -/
def checkRequired (l : Level) (s : Scan) : Except Halt Unit :=
  let given := s.given.map (·.1)
  let required := (l.requiredIds ++ given.flatMap l.requiresOf).eraseDups
  let missing := required.filter (!given.contains ·)
  if missing.isEmpty then .ok ()
  else
    let named := (l.unrollRequired required ++ missing).eraseDups.filter (!given.contains ·)
    let opts := named.filterMap fun id => (l.byId? id).map Opt.display
    let pos := (l.positional.filter fun p => named.contains p.id).map Positional.display
    .error (.refuse (.missingArguments (opts ++ pos.toList) (l.usageLine required (given ++ missing) false)))

/-- The given arguments followed by the defaults of the options not given. -/
def withDefaults (l : Level) (g : Given) : Given :=
  g ++ l.options.filterMap fun o =>
    match o.default with
    | some d => if g.has o.id then none else some (o.id, [d])
    | none => none

/-- Reads a subcommand's words to the end. -/
def parseCommand (c : Command) (words : List String) : Except Halt Given := do
  let l := prog.levelOf c
  let (s, _) ← prog.scanWords l words {}
  let s ← l.resolve s
  checkRequired l s
  pure (withDefaults l s.given)

/-- Reads a command line. -/
def parse (words : List String) : Request :=
  let l := prog.top
  let outcome : Except Halt Request := do
    let (s, command) ← prog.scanWords l words {}
    match command with
    | some (name, rest) =>
      match prog.commands.find? (·.name == name) with
      | some c => do
        let args ← prog.parseCommand c rest
        let s ← l.resolve s
        checkRequired l s
        pure (.run (withDefaults l s.given) name args)
      | none => .error (.refuse (l.strayWord s name))
    | none => do
      let s ← l.resolve s
      if s.given.isEmpty then pure (.showAsError l.helpText)
      else .error (.refuse (.missingCommand prog.name l.commandNames l.plainUsage))
  match outcome with
  | .ok r => r
  | .error (.show text) => .show text
  | .error (.refuse e) => .refuse e

end Program

end VoiceBench.Cli
