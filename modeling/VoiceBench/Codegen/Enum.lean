import VoiceBench.Codegen.Comments
import VoiceBench.Text.Blank
import VoiceBench.WorkDir

/-!
# Enum blocks of C headers

A header declares an enum as a block opened by a line `typedef enum {` and closed by a line
`} name;`. `parseEnum` scans the lines of a header, comments stripped, as a two-state machine:
while searching it waits for an opening line; inside a block it collects the comma-separated
enumerators of each line until a closing line. A block closed under another name is dropped
and the search resumes; an opening line inside a block starts the block afresh.

An enumerator is an identifier, optionally followed by `=` and a value: a decimal or `0x`
hexadecimal constant with optional `u`, `U`, `l`, `L` suffixes, a unary minus, one pair of
parentheses, or the name of an enumerator declared before it in the block. Without a value an
enumerator takes the value after the one before it, and the first one takes 0. Every value
must lie in `0..255`, the slots of a lookup table.
-/

namespace VoiceBench.Codegen

open Text

/-- The largest value a lookup table holds. -/
def maxEnumValue : Int := 255

/-- One enumerator: its identifier, its value and the 1-based line declaring it. -/
structure Entry where
  name : String
  value : Nat
  line : Nat
  deriving Inhabited, Repr, BEq, DecidableEq

/-- A parsed enum block: its typedef name and its enumerators in declaration order. -/
structure Definition where
  name : String
  entries : List Entry
  deriving Inhabited, Repr, BEq, DecidableEq

namespace Definition

/-- The value of the first enumerator of that name. -/
def valueOf? (d : Definition) (name : String) : Option Nat :=
  (d.entries.find? (·.name == name)).map (·.value)

/-- The largest declared value. -/
def maxValue? (d : Definition) : Option Nat :=
  d.entries.foldl (fun m e => some (match m with | some v => max v e.value | none => e.value))
    none

end Definition

/-- Why a header yields no enum. -/
inductive Error where
  | notFound (enumName : String)
  | unterminated (enumName : String) (startLine : Nat)
  | emptyEnum (enumName : String)
  | malformedEntry (line : Nat) (text : String)
  | negativeValue (name : String) (value : Int) (line : Nat)
  | valueOutOfRange (name : String) (value : Int) (line : Nat)
  | cannotRead (path : String) (cause : IoError)
  | cannotWrite (path : String) (cause : IoError)
  deriving Inhabited, Repr, BEq, DecidableEq

/-- Results of a parse compare by their cases and contents, so that a parse can be decided. -/
instance Error.decEqResult : DecidableEq (Except Error Definition)
  | .ok a, .ok b => decidable_of_iff (a = b) (by simp)
  | .error a, .error b => decidable_of_iff (a = b) (by simp)
  | .ok _, .error _ => isFalse (by simp)
  | .error _, .ok _ => isFalse (by simp)

namespace Error

/-- The text of the failure. -/
def message : Error → String
  | .notFound n =>
    let shape := "typedef enum " ++ "\x7b" ++ " ... " ++ "\x7d " ++ n ++ ";"
    s!"enum {n} not found or not formatted as '{shape}'"
  | .unterminated n l => s!"enum {n} starting at line {l} is not terminated"
  | .emptyEnum n => s!"enum {n} has no enumerators"
  | .malformedEntry l t => s!"line {l}: malformed enumerator '{t}'"
  | .negativeValue n v l => s!"line {l}: {n} has negative value {v}"
  | .valueOutOfRange n v l => s!"line {l}: {n} = {v} exceeds the maximum table value of 255"
  | .cannotRead p e => s!"failed to read {p}: {e.message}"
  | .cannotWrite p e => s!"failed to write {p}: {e.message}"

/-- The name of the failure's cause, as reports spell it. -/
def kind : Error → String
  | .notFound .. => "NotFound"
  | .unterminated .. => "Unterminated"
  | .emptyEnum .. => "EmptyEnum"
  | .malformedEntry .. => "MalformedEntry"
  | .negativeValue .. => "NegativeValue"
  | .valueOutOfRange .. => "ValueOutOfRange"
  | .cannotRead .. => "ReadFile"
  | .cannotWrite .. => "WriteFile"

end Error

/-- A C identifier: an ASCII letter or underscore, then ASCII letters, digits or underscores. -/
def isIdentifier (s : String) : Bool :=
  match s.toList with
  | c :: rest => (c.isAlpha || c == '_') && rest.all fun d => d.isAlphanum || d == '_'
  | [] => false

/-- The characters after a prefix, if the text starts with it. -/
def dropPrefix? (s pre : String) : Option String :=
  if s.startsWith pre then some (String.ofList (s.toList.drop pre.length)) else none

/-- The characters before a suffix, if the text ends with it. -/
def dropSuffix? (s suf : String) : Option String :=
  if s.endsWith suf then some (String.ofList (s.toList.take (s.length - suf.length)))
  else none

/-- The text before and after the first occurrence of a character. -/
def splitAtFirst? (s : String) (c : Char) : Option (String × String) :=
  match s.toList.span (· ≠ c) with
  | (before, _ :: after) => some (String.ofList before, String.ofList after)
  | (_, []) => none

/-- The least 64-bit signed value. -/
def int64Min : Int := -(Nat.pow 2 63)

/-- The greatest 64-bit signed value. -/
def int64Max : Int := Nat.pow 2 63 - 1

/-- The value of digits in a radix, most significant first, if every character is a digit. -/
def digitsValue? (radix : Nat) (cs : List Char) : Option Nat :=
  cs.foldlM (fun acc c =>
    let d? : Option Nat :=
      if c.isDigit then some (c.toNat - '0'.toNat)
      else if 'a' ≤ c ∧ c ≤ 'z' then some (c.toNat - 'a'.toNat + 10)
      else if 'A' ≤ c ∧ c ≤ 'Z' then some (c.toNat - 'A'.toNat + 10)
      else none
    match d? with
    | some d => if d < radix then some (acc * radix + d) else none
    | none => none) 0

/-- A signed 64-bit hexadecimal number: an optional sign, then at least one digit. -/
def readHex? (s : String) : Option Int :=
  let (neg, digits) :=
    match s.toList with
    | '+' :: rest => (false, rest)
    | '-' :: rest => (true, rest)
    | cs => (false, cs)
  if digits.isEmpty then none
  else
    match digitsValue? 16 digits with
    | some v =>
      let x : Int := if neg then -(v : Int) else v
      if int64Min ≤ x ∧ x ≤ int64Max then some x else none
    | none => none

/-- A decimal number below `2 ^ 63`: digits only. -/
def readDecimal? (s : String) : Option Int :=
  if s.isEmpty then none
  else
    match digitsValue? 10 s.toList with
    | some v => if (v : Int) ≤ int64Max then some v else none
    | none => none

/-- The 64-bit negation: the least value is its own negation. -/
def negate64 (v : Int) : Int := if v = int64Min then v else -v

/-- The text without one pair of enclosing parentheses and the blanks inside them. -/
def dropParens (t : String) : String :=
  match dropPrefix? t "(" with
  | some inner =>
    match dropSuffix? inner ")" with
    | some core => trim core
    | none => t
  | none => t

/-- The characters of an integer suffix. -/
def isSuffixChar (c : Char) : Bool := c == 'u' || c == 'U' || c == 'l' || c == 'L'

/-- The value of a constant or of the name of an enumerator declared before: decimal or `0x`
hexadecimal digits followed by optional suffix letters, or a name looked up among the entries
before it. -/
def atomValue? (previous : List Entry) (t : String) : Option Int :=
  let digits := String.ofList (t.toList.reverse.dropWhile isSuffixChar).reverse
  match dropPrefix? digits "0x" <|> dropPrefix? digits "0X" with
  | some hex => readHex? hex
  | none =>
    if digits.toList.head?.any Char.isDigit then readDecimal? digits
    else (previous.find? (·.name == t)).map fun e => (e.value : Int)

/-- One level of a value text: its blanks and one pair of parentheses removed, then either a
minus sign before a value that `inner` reads, or an atom. -/
def signedValue? (inner : String → Option Int) (previous : List Entry) (text : String) :
    Option Int :=
  let t := dropParens (trim text)
  match dropPrefix? t "-" with
  | some rest => (inner rest).map negate64
  | none => atomValue? previous t

/-- The value an enumerator's value text denotes, `fuel` bounding the nested minus signs. -/
def valueOf? (previous : List Entry) : Nat → String → Option Int
  | 0, _ => none
  | fuel + 1, text => signedValue? (valueOf? previous fuel) previous text

/-- The name an item declares and the text of its value, if it has one: the item split at its
first `=`, both sides without their blanks. -/
def itemParts (piece : String) : String × Option String :=
  match splitAtFirst? piece '=' with
  | some (n, v) => (trim n, some (trim v))
  | none => (piece, none)

/-- The value an item takes after the given entries: the one its value text denotes, or without
a value text the one after the last entry's, 0 for the first. -/
def itemValue? (previous : List Entry) : Option String → Option Int
  | some text => valueOf? previous (text.length + 1) text
  | none => some (match previous.getLast? with | some e => e.value + 1 | none => 0)

/-- The entry a name with a value declares on a line, or why the value is refused: a value text
that denotes nothing, a negative value, or one past the last slot of a table. -/
def checkedEntry (piece name : String) (line : Nat) : Option Int → Except Error Entry
  | none => .error (.malformedEntry line piece)
  | some v =>
    if v < 0 then .error (.negativeValue name v line)
    else if maxEnumValue < v then .error (.valueOutOfRange name v line)
    else .ok { name, value := v.toNat, line }

/-- The enumerator one item of a block declares, given the enumerators before it. -/
def parseEntry (piece : String) (line : Nat) (previous : List Entry) : Except Error Entry :=
  let (name, valueText) := itemParts piece
  if !isIdentifier name then .error (.malformedEntry line piece)
  else checkedEntry piece name line (itemValue? previous valueText)

/-- The enumerators of one line's text added to those collected so far. -/
def collectEntries (text : String) (line : Nat) (entries : List Entry) :
    Except Error (List Entry) :=
  ((text.toList.splitOn ',').map String.ofList).foldlM (fun acc raw =>
    let piece := trim raw
    if piece.isEmpty then .ok acc
    else (parseEntry piece line acc).map fun e => acc ++ [e]) entries

/-- What follows the brace of a line that opens an enum block. -/
def blockStart? (line : String) : Option String := do
  let rest ← dropPrefix? (trimStart line) "typedef"
  if !(rest.toList.head?.any isBlank) then none
  let rest ← dropPrefix? (trimStart rest) "enum"
  dropPrefix? (trimStart rest) "\x7b"

/-- The text before the brace and the name of a line that closes a block as `} name;`. -/
def blockEnd? (line : String) : Option (String × String) := do
  let (body, after) ← splitAtFirst? line '}'
  let name ← dropSuffix? (trim after) ";"
  let name := trim name
  if isIdentifier name then some (body, name) else none

/-- Where the scan of a header stands. -/
inductive Scan where
  | searching
  | inBlock (startLine : Nat)
  deriving Inhabited, Repr, BEq, DecidableEq

/-- The scan from a numbered line on, with the enumerators collected in the current block. -/
def scan (enumName : String) : Scan → List Entry → Nat → List String →
    Except Error Definition
  | .searching, _, _, [] => .error (.notFound enumName)
  | .inBlock start, _, _, [] => .error (.unterminated enumName start)
  | state, entries, lineNo, line :: rest =>
    match blockStart? line with
    | some after => do
      let entries ← collectEntries after lineNo []
      scan enumName (.inBlock lineNo) entries (lineNo + 1) rest
    | none =>
      match state with
      | .searching => scan enumName .searching entries (lineNo + 1) rest
      | .inBlock start =>
        match blockEnd? line with
        | some (body, closed) =>
          if closed = enumName then do
            let entries ← collectEntries body lineNo entries
            if entries.isEmpty then .error (.emptyEnum enumName)
            else .ok { name := enumName, entries }
          else scan enumName .searching [] (lineNo + 1) rest
        | none => do
          let entries ← collectEntries line lineNo entries
          scan enumName (.inBlock start) entries (lineNo + 1) rest

/-- The enum typedef'd under the name in a header text. -/
def parseEnum (source : String) (enumName : String) : Except Error Definition :=
  scan enumName .searching [] 1 (stripLines false (lines source))

end VoiceBench.Codegen
