import VoiceBench.Control.CommandMap
import VoiceBench.Toml.Codec
import VoiceBench.Toml.Decode

/-!
# Command map files

A command map is stored as a TOML document: the registration tag `info` and an array of
tables `command`, one per command, with the fields `name`, `res_id` (0 when absent), `cmd_id`,
`type`, `rw` (`ro`, `wo` or `rw`), `num_values`, `info` (empty when absent), `hidden` (false
when absent) and `ranges` (none when absent), each range a table of `min` and `max`.

The text is written and read by a TOML library. Reading a file uppercases the command names
(ASCII letters only) and validates the map; `CommandMap.roundTrips` says whether writing a map
and reading it back gives the map again.
-/

namespace VoiceBench.Control

open Toml

namespace ValueRange

/-- The table of a range. -/
def toToml (r : ValueRange) : Toml.Value :=
  .table [("min", .ofFloat r.min), ("max", .ofFloat r.max)]

/-- A range read from its table, or from an array of its two bounds. -/
def ofToml (v : Toml.Value) : Decode ValueRange := do
  let fs ← Fields.of "ValueRange" ["min", "max"] v
  let min ← f64Of (← fs.need "min")
  let max ← f64Of (← fs.need "max")
  .ok ⟨min, max⟩

end ValueRange

namespace Command

/-- The field names of a command's table, in order. -/
def tomlFields : List String :=
  ["name", "res_id", "cmd_id", "type", "rw", "num_values", "info", "hidden", "ranges"]

/-- The table of a command; no `ranges` field when it has none. -/
def toToml (c : Command) : Toml.Value :=
  .table ([("name", .string c.name), ("res_id", .integer c.resource.toNat),
    ("cmd_id", .integer c.id.toNat), ("type", .string c.type.name),
    ("rw", .string c.mode.tag), ("num_values", .integer c.count),
    ("info", .string c.info), ("hidden", .boolean c.hidden)] ++
    (if c.ranges.isEmpty then [] else [("ranges", .array (c.ranges.map ValueRange.toToml))]))

/-- A command read from its table, its name as written. -/
def ofToml (v : Toml.Value) : Decode Command := do
  let fs ← Fields.of "CommandSpec" tomlFields v
  let name ← stringOf (← fs.need "name")
  let resource ← fs.getD "res_id" u8Of 0
  let id ← u8Of (← fs.need "cmd_id")
  let type ← choiceOf (ValueType.all.map fun t => (t.name, t)) (← fs.need "type")
  let mode ← choiceOf ([AccessMode.readOnly, .writeOnly, .readWrite].map fun m => (m.tag, m))
    (← fs.need "rw")
  let count ← usizeOf (← fs.need "num_values")
  let info ← fs.getD "info" stringOf ""
  let hidden ← fs.getD "hidden" boolOf false
  let ranges ← fs.getD "ranges" (fun r => do (← arrayOf r).mapM ValueRange.ofToml) []
  .ok { name, resource, id, type, mode, count, info, hidden, ranges }

end Command

namespace CommandMap

/-- The document of a map. -/
def toToml (m : CommandMap) : List (String × Toml.Value) :=
  [("info", .string m.info), ("command", .array (m.commands.map Command.toToml))]

/-- A map read from its document, names as written. -/
def ofToml (entries : List (String × Toml.Value)) : Decode CommandMap := do
  let fs ← Fields.of "CommandMap" ["info", "command"] (.table entries)
  let info ← stringOf (← fs.need "info")
  let commands ← fs.getD "command" (fun c => do (← arrayOf c).mapM Command.ofToml) []
  .ok { info, commands }

/-- The map a TOML text describes, its names uppercased, validated. -/
def ofText (toml : Toml.Codec) (text : String) (path : String) : Except Error CommandMap := do
  let doc ← (toml.parse text).mapError fun e => Error.mapParse path e
  let m ← (ofToml doc).mapError fun e => Error.mapParse path e
  let m := { m with commands := m.commands.map fun c => { c with name := c.name.map Char.toUpper } }
  m.validate
  .ok m

/-- The TOML text of a map, or why the library cannot write it. -/
def toText (toml : Toml.Codec) (m : CommandMap) : Except String String := toml.render m.toToml

/-- Whether the map's text is written and reads back as the same map. -/
def roundTrips (toml : Toml.Codec) (m : CommandMap) : Bool :=
  match m.toText toml with
  | .ok text =>
    match ofText toml text "map.toml" with
    | .ok m' => m' == m
    | .error _ => false
  | .error _ => false

end CommandMap

end VoiceBench.Control
