import VoiceBench.Toml.Value
import VoiceBench.Binary.Format

/-!
# Reading typed data out of TOML values

A record is read from a table by field name, unknown fields ignored, or from an array by
position, missing trailing fields taking their defaults. Integers are range-checked for the
field's type; a float field accepts an integer, rounded to the nearest float; a choice among
names is read from a string, or from a one-key table whose value is empty.
-/

namespace VoiceBench.Toml

/-- The outcome of reading typed data: the data, or why the value does not describe it. -/
abbrev Decode := Except String

/-- The description of a value in a type error. -/
def describe : Value → String
  | .string s => s!"string \"{s}\""
  | .integer n => s!"integer {n}"
  | .float _ => "floating point"
  | .boolean b => s!"boolean {b}"
  | .datetime _ => "datetime"
  | .array _ => "sequence"
  | .table _ => "map"

/-- The failure for a value of the wrong kind. -/
def invalidType {α : Type} (v : Value) (expected : String) : Decode α :=
  .error s!"invalid type: {describe v}, expected {expected}"

/-- The fields of a record: looked up by name in a table, by position in an array. -/
structure Fields where
  /-- The value written for a field, if any. -/
  get? : String → Option Value

/-- The fields of a value read as the record of that name with those fields in order. -/
def Fields.of (record : String) (names : List String) (v : Value) : Decode Fields :=
  match v with
  | .table entries => .ok ⟨lookup entries⟩
  | .array items => .ok ⟨fun name =>
      match names.idxOf? name with
      | some i => items[i]?
      | none => none⟩
  | _ => invalidType v s!"struct {record}"

/-- A field that must be written. -/
def Fields.need (fs : Fields) (name : String) : Decode Value :=
  match fs.get? name with
  | some v => .ok v
  | none => .error s!"missing field {name}"

/-- A field read by a function, or its default when absent. -/
def Fields.getD {α : Type} (fs : Fields) (name : String) (read : Value → Decode α) (default : α) :
    Decode α :=
  match fs.get? name with
  | some v => read v
  | none => .ok default

/-- A string. -/
def stringOf (v : Value) : Decode String :=
  match v with
  | .string s => .ok s
  | _ => invalidType v "a string"

/-- A boolean. -/
def boolOf (v : Value) : Decode Bool :=
  match v with
  | .boolean b => .ok b
  | _ => invalidType v "a boolean"

/-- An integer within the range of a type, named as errors name it. -/
def boundedOf (lo hi : Int) (typeName : String) (v : Value) : Decode Int :=
  match v with
  | .integer n =>
    if lo ≤ n ∧ n ≤ hi then .ok n else .error s!"invalid value: integer {n}, expected {typeName}"
  | _ => invalidType v typeName

/-- A byte. -/
def u8Of (v : Value) : Decode UInt8 := (fun n => UInt8.ofNat n.toNat) <$> boundedOf 0 255 "u8" v

/-- A 32-bit unsigned integer. -/
def u32Of (v : Value) : Decode Nat := Int.toNat <$> boundedOf 0 (Nat.pow 2 32 - 1) "u32" v

/-- A natural number of the machine's word size. -/
def usizeOf (v : Value) : Decode Nat := Int.toNat <$> boundedOf 0 (Nat.pow 2 64 - 1) "usize" v

/-- The bits of a 64-bit float: a float as it is, an integer rounded to nearest. -/
def f64BitsOf (v : Value) : Decode UInt64 :=
  match v with
  | .float bits => .ok bits
  | .integer n =>
    .ok (UInt64.ofNat (Binary.Format.double.roundRatio (decide (n < 0)) n.natAbs 1))
  | _ => invalidType v "f64"

/-- A 64-bit float. -/
def f64Of (v : Value) : Decode Float := Float.ofBits <$> f64BitsOf v

/-- An array. -/
def arrayOf (v : Value) : Decode (List Value) :=
  match v with
  | .array items => .ok items
  | _ => invalidType v "a sequence"

/-- One of several named choices, written as its name, or as a table whose one key is the
name and whose value is empty. -/
def choiceOf {α : Type} (choices : List (String × α)) (v : Value) : Decode α :=
  let expected := ", ".intercalate (choices.map (·.1))
  let byName (name : String) : Decode α :=
    match choices.find? (·.1 == name) with
    | some (_, a) => .ok a
    | none => .error s!"unknown variant {name}, expected one of {expected}"
  match v with
  | .string name => byName name
  | .table [(name, inner)] =>
    match inner with
    | .table [] | .array [] => byName name
    | _ => .error "expected empty table"
  | .table [] => .error "wanted exactly 1 element, found 0 elements"
  | .table _ => .error "wanted exactly 1 element, more than 1 element"
  | _ => .error "wanted string or table"

end VoiceBench.Toml
