/-!
# TOML values

A TOML document is a table: keys in the order they were first written, each bound to a
string, an integer, a float, a boolean, a date-time, an array or a nested table. Floats are
kept as the bits of their 64-bit encoding, so a value compares bit for bit and its text can be
reproduced exactly. A date-time is kept as the text it was written as.
-/

namespace VoiceBench.Toml

/-- A TOML value. -/
inductive Value where
  | string (s : String)
  | integer (n : Int)
  | float (bits : UInt64)
  | boolean (b : Bool)
  | datetime (text : String)
  | array (items : List Value)
  | table (entries : List (String × Value))
  deriving Inhabited, Repr, BEq

namespace Value

/-- The name of the value's kind, as type errors report it. -/
def kindName : Value → String
  | .string _ => "string"
  | .integer _ => "integer"
  | .float _ => "float"
  | .boolean _ => "boolean"
  | .datetime _ => "datetime"
  | .array _ => "array"
  | .table _ => "table"

/-- The float of a value's bits. -/
def ofFloat (x : Float) : Value := .float x.toBits

end Value

/-- The value bound to a key in a table's entries. -/
def lookup (entries : List (String × Value)) (key : String) : Option Value :=
  (entries.find? (·.1 == key)).map (·.2)

end VoiceBench.Toml
