import VoiceBench.Toml.Read
import VoiceBench.Toml.Codec
import VoiceBench.Binary.Text

/-!
# Writing TOML documents, and the built-in library

A table is written as its plain pairs, one `key = value` line each, followed by a section for
every nested table (`[a.b]`) and every non-empty array of tables (`[[a.b]]`, one per element),
each section separated from what precedes it by an empty line. Values inside a line are
written inline: strings as basic strings with escapes, floats in the shortest form that reads
back to the same bits, arrays in brackets and tables in braces.

With the reader of `Toml.Read` this is the TOML library the tools run with, `Codec.builtin`.
-/

namespace VoiceBench.Toml

/-- The escape of one character of a basic string, or the character itself. -/
def escapeChar (c : Char) : String :=
  match c with
  | '"' => "\\\""
  | '\\' => "\\\\"
  | '\x08' => "\\b"
  | '\t' => "\\t"
  | '\n' => "\\n"
  | '\x0c' => "\\f"
  | '\r' => "\\r"
  | _ =>
    if c.toNat < 0x20 || c.toNat == 0x7F then
      let h := (Nat.toDigits 16 c.toNat).map Char.toUpper
      "\\u" ++ String.ofList (List.replicate (4 - h.length) '0' ++ h)
    else c.toString

/-- A string as a basic string. -/
def quote (s : String) : String := "\"" ++ String.join (s.toList.map escapeChar) ++ "\""

/-- A key as written: bare when it can be, quoted otherwise. -/
def keyText (k : String) : String :=
  if !k.isEmpty && k.toList.all isBareKeyChar then k else quote k

/-- A dotted key as written. -/
def pathText (path : List String) : String := ".".intercalate (path.map keyText)

/-- The text of a 64-bit float: `nan`, `inf`, or the shortest decimal, with `.0` after an
integral value. -/
def floatText (bits : UInt64) : String :=
  let f := Binary.Format.double
  let n := bits.toNat
  match f.unpack n with
  | .nan => if n ≥ f.signBit then "-nan" else "nan"
  | .infinite neg => if neg then "-inf" else "inf"
  | .finite _ _ _ =>
    let t := f.plainText n
    if t.contains '.' then t else t ++ ".0"

mutual

/-- A value written inline. -/
def inlineText : Value → String
  | .string s => quote s
  | .integer n => toString n
  | .float bits => floatText bits
  | .boolean b => if b then "true" else "false"
  | .datetime t => t
  | .array items => "[" ++ ", ".intercalate (itemsText items) ++ "]"
  | .table entries =>
    match pairsText entries with
    | [] => "\x7b\x7d"
    | pairs => "\x7b " ++ ", ".intercalate pairs ++ " \x7d"

/-- The items of an array, each written inline. -/
def itemsText : List Value → List String
  | [] => []
  | v :: rest => inlineText v :: itemsText rest

/-- The pairs of a table, each written inline. -/
def pairsText : List (String × Value) → List String
  | [] => []
  | (k, v) :: rest => (keyText k ++ " = " ++ inlineText v) :: pairsText rest

end

/-- Whether a value is a non-empty array of tables only. -/
def isTableArray : Value → Bool
  | .array items => !items.isEmpty && items.all fun v => match v with | .table _ => true | _ => false
  | _ => false

/-- Whether a value is written as a section rather than on a line of its table. -/
def isSection (v : Value) : Bool :=
  match v with
  | .table _ => true
  | _ => isTableArray v

mutual

/-- A table's pairs and sections, its own header already written. -/
def tableText (path : List String) : List (String × Value) → String
  | entries =>
    let lines := String.join ((entries.filter fun (_, v) => !isSection v).map
      fun (k, v) => keyText k ++ " = " ++ inlineText v ++ "\n")
    lines ++ sectionsText path entries

/-- The sections of a table's nested tables and arrays of tables, in order. -/
def sectionsText (path : List String) : List (String × Value) → String
  | [] => ""
  | (k, v) :: rest =>
    let here := match v with
      | .table inner => "\n[" ++ pathText (path ++ [k]) ++ "]\n" ++ tableText (path ++ [k]) inner
      | .array items =>
        if isTableArray v then elementsText (path ++ [k]) items else ""
      | _ => ""
    here ++ sectionsText path rest

/-- The elements of an array of tables, each under its own header. -/
def elementsText (path : List String) : List Value → String
  | [] => ""
  | .table inner :: rest =>
    "\n[[" ++ pathText path ++ "]]\n" ++ tableText path inner ++ elementsText path rest
  | _ :: rest => elementsText path rest

end

/-- The document text of a table. -/
def render (entries : List (String × Value)) : String :=
  let text := tableText [] entries
  if text.startsWith "\n" then String.ofList text.toList.tail else text

/-- The library the tools run with: `parse` reads a text and `render` writes every table. -/
def Codec.builtin : Codec := ⟨Toml.parse, fun entries => .ok (Toml.render entries)⟩

end VoiceBench.Toml
