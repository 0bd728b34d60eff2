import Mathlib
import VoiceBench.Control.MapFile
import VoiceBench.Proofs.Toml.Laws
import VoiceBench.Proofs.Control.Lookup
import VoiceBench.Proofs.Binary.FloatBits
import VoiceBench.Proofs.Checks

/-!
# Command maps written and read back

A command map is written as a TOML document: its tag, then a table for each command, and in it
a table for each range, if it has any. The text is written and read by a TOML library, and of it
only its law is asked (`Toml.Codec.ReadsBack`): the document of a map whose counts are 64-bit
integers is one the law covers (`CommandMap.plain_toToml`), so it is written and read back as
itself. Decoding it gives the map again (`CommandMap.ofToml_toToml`): each field is read where
it was written, and the one field left out, an empty list of ranges, is the default of its
absence.

Reading a map's text so gives the map with its names uppercased, validated
(`ofText_toText_eq`). Main statement: `ofText_toText`, a consistent map named in upper case,
whose counts are 64-bit integers, is written and read back from its text as itself. A map that
`validate` accepts with a name in lower case comes back with the name uppercased
(`lower_case_name_renamed`).
-/

namespace VoiceBench.Control

open Toml

variable {toml : Toml.Codec}

/-! ## The document of a map -/

/-- A byte is a 64-bit integer. -/
theorem plain_byte (b : UInt8) : Value.Plain (.integer b.toNat) := by
  have hb := b.toNat_lt
  exact .integer (by omega) (by omega)

/-- A range's table holds its two bounds under distinct keys. -/
theorem ValueRange.plain_toToml (r : ValueRange) : Value.Plain r.toToml := by
  refine .table (by simp only [List.map_cons, List.map_nil]; decide) ?_
  simp only [List.mem_cons, List.not_mem_nil, or_false, forall_eq_or_imp, forall_eq]
  exact ⟨.float _, .float _⟩

/-- A command's table holds its fields under distinct keys, its count a 64-bit integer, and its
ranges, if it has any, as an array of tables. -/
theorem Command.plain_toToml {c : Command} (hcount : c.count < 2 ^ 63) :
    Value.Plain c.toToml := by
  have hfields : ∀ e ∈ [("name", Value.string c.name), ("res_id", .integer c.resource.toNat),
      ("cmd_id", .integer c.id.toNat), ("type", .string c.type.name), ("rw", .string c.mode.tag),
      ("num_values", .integer c.count), ("info", .string c.info),
      ("hidden", .boolean c.hidden)], Value.Plain e.2 := by
    simp only [List.mem_cons, List.not_mem_nil, or_false, forall_eq_or_imp, forall_eq]
    exact ⟨.string _, plain_byte _, plain_byte _, .string _, .string _,
      .integer (by omega) (by exact_mod_cast hcount), .string _, .boolean _⟩
  unfold Command.toToml
  cases hr : c.ranges.isEmpty with
  | true =>
    refine .table (by simp only [if_true, List.append_nil, List.map_cons, List.map_nil]; decide) ?_
    simpa only [if_true, List.append_nil] using hfields
  | false =>
    refine .table (by simp only [Bool.false_eq_true, if_false, List.cons_append, List.nil_append,
      List.map_cons, List.map_nil]; decide) ?_
    simp only [Bool.false_eq_true, if_false, List.mem_append, List.mem_singleton]
    rintro e (he | rfl)
    · exact hfields e he
    · refine .array fun v hv => ?_
      obtain ⟨r, -, rfl⟩ := List.mem_map.1 hv
      exact r.plain_toToml

/-- A map's document holds its tag and its commands under distinct keys, and is covered by the
law when its counts are 64-bit integers. -/
theorem CommandMap.plain_toToml {m : CommandMap} (hcount : ∀ c ∈ m.commands, c.count < 2 ^ 63) :
    Value.Plain (.table m.toToml) := by
  refine .table (by simp only [CommandMap.toToml, List.map_cons, List.map_nil]; decide) ?_
  simp only [CommandMap.toToml, List.mem_cons, List.not_mem_nil, or_false, forall_eq_or_imp,
    forall_eq]
  refine ⟨.string _, .array fun v hv => ?_⟩
  obtain ⟨c, hc, rfl⟩ := List.mem_map.1 hv
  exact Command.plain_toToml (hcount c hc)

/-! ## Reading -/

/-- A byte written as an integer is read back. -/
theorem u8Of_toNat (b : UInt8) : u8Of (.integer b.toNat) = .ok b := by
  have hb : b.toNat < 256 := b.toNat_lt
  simp only [u8Of, boundedOf]
  rw [if_pos ⟨by omega, by omega⟩]
  simp [Functor.map, Except.map]

/-- A count of a machine word written as an integer is read back. -/
theorem usizeOf_natCast {n : Nat} (hn : n < 2 ^ 64) : usizeOf (.integer n) = .ok n := by
  simp only [usizeOf, boundedOf]
  rw [if_pos ⟨by omega, by simp only [Nat.pow_eq]; omega⟩]
  rfl

/-- A double kept as its bits is read back. -/
theorem f64Of_ofFloat (x : Float) : f64Of (.ofFloat x) = .ok x := by
  simp only [f64Of, Value.ofFloat, f64BitsOf]
  show Except.ok (Float.ofBits x.toBits) = _
  rw [Binary.ofBits_toBits]

/-- A value type is read back from its name. -/
theorem choiceOf_typeName (t : ValueType) :
    choiceOf (ValueType.all.map fun t => (t.name, t)) (.string t.name) = .ok t := by
  cases t <;> rfl

/-- An access mode is read back from its tag. -/
theorem choiceOf_modeTag (m : AccessMode) :
    choiceOf [(AccessMode.readOnly.tag, .readOnly), (AccessMode.writeOnly.tag, .writeOnly),
      (AccessMode.readWrite.tag, .readWrite)] (.string m.tag) = .ok m := by
  cases m <;> rfl

/-- A range is read back from its table. -/
theorem ValueRange.ofToml_toToml (r : ValueRange) : ValueRange.ofToml r.toToml = .ok r := by
  simp [ValueRange.ofToml, ValueRange.toToml, Fields.of, Fields.need, Toml.lookup, f64Of_ofFloat,
    bind, Except.bind]

/-- A command is read back from its table, as long as its count is a machine word. -/
theorem Command.ofToml_toToml {c : Command} (hcount : c.count < 2 ^ 64) :
    Command.ofToml c.toToml = .ok c := by
  have hranges := mapM_map_inverse fun r (_ : r ∈ c.ranges) => ValueRange.ofToml_toToml r
  unfold Command.ofToml Command.toToml
  -- the ranges are written only when there are some, and their absence reads as none
  cases hr : c.ranges.isEmpty with
  | false =>
    simp [Fields.of, Fields.need, Fields.getD, Toml.lookup, bind, Except.bind, u8Of_toNat,
      usizeOf_natCast hcount, choiceOf_typeName, choiceOf_modeTag, stringOf, boolOf, arrayOf,
      hranges]
  | true =>
    obtain ⟨name, resource, id, type, mode, count, info, hidden, ranges⟩ := c
    obtain rfl : ranges = [] := List.isEmpty_iff.1 hr
    simp [Fields.of, Fields.need, Fields.getD, Toml.lookup, bind, Except.bind, u8Of_toNat,
      usizeOf_natCast hcount, choiceOf_typeName, choiceOf_modeTag, stringOf, boolOf]

namespace CommandMap

/-- A map is read back from its document, as long as its counts are machine words. -/
theorem ofToml_toToml {m : CommandMap} (hcount : ∀ c ∈ m.commands, c.count < 2 ^ 64) :
    ofToml m.toToml = .ok m := by
  have hcommands := mapM_map_inverse fun c hc => Command.ofToml_toToml (hcount c hc)
  simp [ofToml, toToml, Fields.of, Fields.need, Fields.getD, Toml.lookup, bind, Except.bind,
    stringOf, arrayOf, hcommands]

/-- The map with every name uppercased, as reading a map's text leaves it. -/
def upperNames (m : CommandMap) : CommandMap :=
  { m with commands := m.commands.map fun c => { c with name := c.name.map Char.toUpper } }

/-- A map named in upper case is left as it is by uppercasing. -/
theorem upperNames_of_upper {m : CommandMap}
    (hupper : ∀ c ∈ m.commands, c.name.map Char.toUpper = c.name) : m.upperNames = m := by
  obtain ⟨info, commands⟩ := m
  simp only [upperNames, mk.injEq, true_and]
  conv => rhs; rw [← List.map_id commands]
  exact List.map_congr_left fun c hc => by rw [hupper c hc]; rfl

/-- Through a library that reads back what it writes, a map whose counts are 64-bit integers is
written, and reading its text gives the map with its names uppercased, if that map is
consistent. -/
theorem ofText_toText_eq (hlib : toml.ReadsBack) {m : CommandMap}
    (hcount : ∀ c ∈ m.commands, c.count < 2 ^ 63) (path : String) :
    ∃ text, m.toText toml = .ok text ∧
      ofText toml text path = (do m.upperNames.validate; .ok m.upperNames) := by
  obtain ⟨text, hrender, hparse⟩ := hlib _ (plain_toToml hcount)
  have hword : ∀ c ∈ m.commands, c.count < 2 ^ 64 := fun c hc => by
    have := hcount c hc
    omega
  refine ⟨text, hrender, ?_⟩
  simp only [ofText, hparse, Except.mapError, bind, Except.bind, ofToml_toToml hword]
  rfl

/-- Through a library that reads back what it writes, a consistent map named in upper case,
whose counts are 64-bit integers, is written, and read back from its text as itself, field for
field. -/
theorem ofText_toText (toml : Toml.Codec) (hlib : toml.ReadsBack) {m : CommandMap}
    (hvalid : m.validate = .ok ()) (hupper : ∀ c ∈ m.commands, c.name.map Char.toUpper = c.name)
    (hcount : ∀ c ∈ m.commands, c.count < 2 ^ 63) (path : String) :
    ∃ text, m.toText toml = .ok text ∧ ofText toml text path = .ok m := by
  obtain ⟨text, hwrite, hread⟩ := ofText_toText_eq hlib hcount path
  refine ⟨text, hwrite, ?_⟩
  rw [hread, upperNames_of_upper hupper, hvalid]
  rfl

/-- A map whose text is written and read back round-trips exactly when the map read is the
map. -/
theorem roundTrips_of_read {m m' : CommandMap} {text : String} (hwrite : m.toText toml = .ok text)
    (hread : ofText toml text "map.toml" = .ok m') : m.roundTrips toml = (m' == m) := by
  simp only [roundTrips, hwrite, hread]

/-- The test map is consistent and named in upper case, and through the prefix code its text
reads back as itself. -/
theorem test_map_read_back :
    Toml.Codec.prefixCode.ReadsBack ∧ testMap.validate = .ok () ∧
      (∀ c ∈ testMap.commands, c.name.map Char.toUpper = c.name) ∧
      (∀ c ∈ testMap.commands, c.count < 2 ^ 63) ∧
      ∃ text, testMap.toText Toml.Codec.prefixCode = .ok text ∧
        ofText Toml.Codec.prefixCode text "map.toml" = .ok testMap := by
  have hvalid : testMap.validate = .ok () := by decide +kernel
  have hcount : ∀ c ∈ testMap.commands, c.count < 2 ^ 63 := by simp [testMap, Command.make]
  exact ⟨Toml.Codec.prefixCode_readsBack, hvalid, testMap_upper_names, hcount,
    ofText_toText _ Toml.Codec.prefixCode_readsBack hvalid testMap_upper_names hcount "map.toml"⟩

/-- A map given a read/write byte command named `a` as written is consistent, but through a
library that reads back what it writes its text reads back with the command named `A`, so the
map does not survive the round trip. -/
theorem lower_case_name_renamed :
    let c : Command := { name := "a", resource := 0, id := 1, type := .uint8, mode := .readWrite,
                         count := 1 }
    let m : CommandMap := ⟨"t", [c]⟩
    m.validate = .ok () ∧
      (∃ text, m.toText Toml.Codec.prefixCode = .ok text ∧
        ofText Toml.Codec.prefixCode text "map.toml" = .ok ⟨"t", [{ c with name := "A" }]⟩) ∧
      m.roundTrips Toml.Codec.prefixCode = false := by
  intro c m
  have hvalid : m.validate = .ok () := by decide +kernel
  have hupper : m.upperNames = ⟨"t", [{ c with name := "A" }]⟩ := by
    simp [m, c, upperNames, String.map_eq_internal]
  have hrenamed : (⟨"t", [{ c with name := "A" }]⟩ : CommandMap).validate = .ok () := by
    decide +kernel
  obtain ⟨text, htext, hread⟩ :=
    ofText_toText_eq Toml.Codec.prefixCode_readsBack (m := m) (by simp [m, c]) "map.toml"
  have hrenamedRead : ofText Toml.Codec.prefixCode text "map.toml" =
      .ok ⟨"t", [{ c with name := "A" }]⟩ := by
    rw [hread, hupper, hrenamed]
    rfl
  refine ⟨hvalid, ⟨text, htext, hrenamedRead⟩, ?_⟩
  rw [roundTrips_of_read htext hrenamedRead]
  decide +kernel

end CommandMap

end VoiceBench.Control
