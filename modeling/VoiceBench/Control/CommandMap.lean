import VoiceBench.Control.Command
import VoiceBench.Text.EditDistance

/-!
# Command maps

The commands a device understands, in declaration order, and the info tag the device checks
when the host registers. `CommandMap.validate` states what makes a map consistent; `find`
looks a name up ignoring ASCII case; `lookup` fails with the nearest listed name as a
suggestion, by optimal string alignment distance, the first declared winning a tie.
-/

namespace VoiceBench.Control

/-- A command map: the registration tag and the commands in declaration order. -/
structure CommandMap where
  info : String
  commands : List Command
  deriving Inhabited, Repr, BEq

namespace CommandMap

/-- The first inconsistency of one command, given the names and id pairs declared before it. -/
def commandProblem (names : List String) (ids : List (UInt8 × UInt8)) (c : Command) :
    Option String :=
  if c.name.isEmpty then some "empty command name"
  else if names.contains c.name then some s!"duplicate command name {c.name}"
  else if c.id &&& readBit ≠ 0 then
    some s!"{c.name}: command id {c.id.toNat} collides with the read bit"
  else if ids.contains (c.resource, c.id) then
    some s!"{c.name}: resource {c.resource.toNat} command {c.id.toNat} is already used"
  else if c.count = 0 then some s!"{c.name}: num_values must be positive"
  else if c.type = .char ∧ c.mode ≠ .readOnly then
    some s!"{c.name}: {Error.charWrite.message}"
  else
    (c.ranges.find? ValueRange.isEmpty).map fun r => s!"{c.name}: empty range {r.text}"

/-- The first inconsistency of a list of commands, in declaration order. -/
def firstProblem : List String → List (UInt8 × UInt8) → List Command → Option String
  | _, _, [] => none
  | names, ids, c :: rest =>
    match commandProblem names ids c with
    | some p => some p
    | none => firstProblem (c.name :: names) ((c.resource, c.id) :: ids) rest

/-- A map is consistent when every command has a non-empty name not declared before, an id
without the read bit, a resource and id pair not declared before, at least one value, is
read-only if it carries text, and has no empty range. -/
def validate (m : CommandMap) : Except Error Unit :=
  match firstProblem [] [] m.commands with
  | some p => .error (.invalidMap p)
  | none => .ok ()

/-- The commands that listings and dumps show, in order. -/
def listed (m : CommandMap) : List Command := m.commands.filter Command.isListed

/-- The command whose name equals the given one uppercased. -/
def find? (m : CommandMap) (name : String) : Option Command :=
  let upper := name.map Char.toUpper
  m.commands.find? (·.name == upper)

/-- The first listed command nearest to the uppercased name. -/
def suggest? (m : CommandMap) (name : String) : Option String :=
  let upper := name.map Char.toUpper
  let pick (best : Option (Nat × String)) (c : Command) : Option (Nat × String) :=
    let d := Text.osaDistance upper c.name
    match best with
    | some (bd, _) => if d < bd then some (d, c.name) else best
    | none => some (d, c.name)
  (m.listed.foldl pick none).map (·.2)

/-- The command of that name, or the failure naming it uppercased with a suggestion. -/
def lookup (m : CommandMap) (name : String) : Except Error Command :=
  match m.find? name with
  | some c => .ok c
  | none => .error (.unknownCommand (name.map Char.toUpper) (m.suggest? name))

/-- The tag of the built-in test map. -/
def testInfo : String := "test"

/-- The description of a test command for one type. -/
def testDescription (kind : String) : String :=
  s!"This is a test command for testing multiple {kind} reads and writes. " ++
    "Need to keep command description large to test -l option."

/-- The map of the simulated device: a read/write command of 20 values per type, a
read-only text command, a hidden command, a three-value command for command lists and a
float command restricted to `[-1, 1]` and `[10, 20]`. -/
def testMap : CommandMap where
  info := testInfo
  commands := [
    Command.make "CMD_FLOAT" 0 0 .float .readWrite 20 (testDescription "float"),
    Command.make "CMD_INT32" 0 1 .int32 .readWrite 20 (testDescription "int32"),
    Command.make "CMD_UINT32" 0 2 .uint32 .readWrite 20 (testDescription "uint32"),
    Command.make "CMD_RADS" 0 3 .radians .readWrite 20 (testDescription "radians"),
    Command.make "CMD_UINT8" 0 4 .uint8 .readWrite 20 (testDescription "uint8"),
    Command.make "CMD_CHAR" 0 5 .char .readOnly 20 (testDescription "char"),
    { Command.make "CMD_HIDDEN" 0 6 .uint8 .readWrite 20
        "This command is supposed to be hidden and not show up when using -l or -d" with
      hidden := true },
    Command.make "CMD_SMALL" 0 7 .int32 .readWrite 3
      "This is a small command for testing -e option",
    { Command.make "CMD_RANGED" 0 8 .float .readWrite 2
        "Float command accepting values in [-1, 1] or [10, 20], for testing range checks" with
      ranges := [⟨-1.0, 1.0⟩, ⟨10.0, 20.0⟩] }]

end CommandMap

end VoiceBench.Control
