import VoiceBench.Toml.Value
import VoiceBench.Decimal.Read

/-!
# The lexical layer of TOML

Readers for the pieces of a TOML line: blanks and comments, keys, strings in their four
forms, integers, floats and date-times. A reader takes the characters still to read and gives
the piece and the characters after it, or why the text is not TOML.

Strings are checked character by character: a basic string allows the escapes `\b \t \n \f
\r \" \\ \uXXXX \UXXXXXXXX`, a literal string none, and neither allows a control character
other than tab. A multi-line string drops a line ending right after its opening delimiter; in
a multi-line basic string a backslash ending a line removes every blank and line ending after
it. Numbers follow the TOML grammar: no leading zeros, an underscore only between two digits,
prefixed integers without a sign, a float with a fraction or an exponent; integers must fit
64 bits and a float must not overflow to positive infinity.
-/

namespace VoiceBench.Toml

/-- A piece read from the front of the characters, and what follows it. -/
abbrev Reader (α : Type) := List Char → Except String (α × List Char)

/-- The blanks of a line: space and tab. -/
def isSpace (c : Char) : Bool := c == ' ' || c == '\t'

/-- The characters without their leading blanks. -/
def skipSpaces (cs : List Char) : List Char := cs.dropWhile isSpace

/-- A character a comment may hold: tab, printable ASCII or anything beyond ASCII. -/
def isCommentChar (c : Char) : Bool :=
  c == '\t' || (0x20 ≤ c.toNat && c.toNat ≤ 0x7E) || 0x80 ≤ c.toNat

/-- The characters after a comment that starts them, the line ending left in place. -/
def skipComment : List Char → List Char
  | '#' :: rest => rest.dropWhile isCommentChar
  | cs => cs

/-- The characters after a line ending that starts them. -/
def newline? : List Char → Option (List Char)
  | '\n' :: rest => some rest
  | '\r' :: '\n' :: rest => some rest
  | _ => none

/-- A character a bare key consists of. -/
def isBareKeyChar (c : Char) : Bool := c.isAlphanum || c == '_' || c == '-'

/-- The value of hexadecimal digits. -/
def hexDigits? (cs : List Char) : Option Nat :=
  cs.foldlM (fun acc c =>
    if c.isDigit then some (acc * 16 + (c.toNat - '0'.toNat))
    else if 'a' ≤ c ∧ c ≤ 'f' then some (acc * 16 + (c.toNat - 'a'.toNat + 10))
    else if 'A' ≤ c ∧ c ≤ 'F' then some (acc * 16 + (c.toNat - 'A'.toNat + 10))
    else none) 0

/-- The character of a Unicode scalar value given in hexadecimal digits. -/
def scalarOfHex? (cs : List Char) : Option Char :=
  match hexDigits? cs with
  | some n => if n < 0xD800 ∨ (0xDFFF < n ∧ n < 0x110000) then some (Char.ofNat n) else none
  | none => none

/-- A character a basic string holds as it is written. -/
def isBasicChar (c : Char) : Bool :=
  c == '\t' || (0x20 ≤ c.toNat && c.toNat ≤ 0x7E && c != '"' && c != '\\') || 0x80 ≤ c.toNat

/-- A character a literal string holds. -/
def isLiteralChar (c : Char) : Bool :=
  c == '\t' || (0x20 ≤ c.toNat && c.toNat ≤ 0x7E && c != '\'') || 0x80 ≤ c.toNat

/-- The character an escape stands for, and what follows the escape; the backslash is read. -/
def readEscape : List Char → Except String (Char × List Char)
  | 'b' :: rest => .ok ('\x08', rest)
  | 't' :: rest => .ok ('\t', rest)
  | 'n' :: rest => .ok ('\n', rest)
  | 'f' :: rest => .ok ('\x0c', rest)
  | 'r' :: rest => .ok ('\r', rest)
  | '"' :: rest => .ok ('"', rest)
  | '\\' :: rest => .ok ('\\', rest)
  | 'u' :: rest =>
    match scalarOfHex? (rest.take 4) with
    | some c => if rest.length < 4 then .error "invalid unicode escape" else .ok (c, rest.drop 4)
    | none => .error "invalid unicode escape"
  | 'U' :: rest =>
    match scalarOfHex? (rest.take 8) with
    | some c => if rest.length < 8 then .error "invalid unicode escape" else .ok (c, rest.drop 8)
    | none => .error "invalid unicode escape"
  | _ => .error "invalid escape sequence"

/-- The body of a basic string after its opening quote, `fuel` bounding the characters read. -/
def basicBody : Nat → List Char → Except String (List Char × List Char)
  | 0, _ => .error "string too long"
  | _ + 1, [] => .error "unterminated string"
  | _ + 1, '"' :: rest => .ok ([], rest)
  | fuel + 1, '\\' :: rest => do
    let (c, rest) ← readEscape rest
    let (body, after) ← basicBody fuel rest
    .ok (c :: body, after)
  | fuel + 1, c :: rest =>
    if isBasicChar c then do
      let (body, after) ← basicBody fuel rest
      .ok (c :: body, after)
    else .error "invalid character in string"

/-- The body of a literal string after its opening quote. -/
def literalBody : List Char → Except String (List Char × List Char)
  | [] => .error "unterminated string"
  | '\'' :: rest => .ok ([], rest)
  | c :: rest =>
    if isLiteralChar c then do
      let (body, after) ← literalBody rest
      .ok (c :: body, after)
    else .error "invalid character in string"

/-- The characters after blanks and line endings. -/
def skipBlankLines : Nat → List Char → Except String (List Char)
  | 0, _ => .error "input too long"
  | fuel + 1, cs =>
    match cs with
    | ' ' :: rest | '\t' :: rest | '\n' :: rest => skipBlankLines fuel rest
    | '\r' :: '\n' :: rest => skipBlankLines fuel rest
    | '\r' :: _ => .error "carriage return without line feed"
    | _ => .ok cs

/-- The body of a multi-line basic string after its opening delimiter. Up to two quotes
before the closing delimiter belong to the body. -/
def mlBasicBody : Nat → List Char → Except String (List Char × List Char)
  | 0, _ => .error "string too long"
  | _ + 1, [] => .error "unterminated string"
  | _ + 1, '"' :: '"' :: '"' :: '"' :: '"' :: rest => .ok (['"', '"'], rest)
  | _ + 1, '"' :: '"' :: '"' :: '"' :: rest => .ok (['"'], rest)
  | _ + 1, '"' :: '"' :: '"' :: rest => .ok ([], rest)
  | fuel + 1, '\\' :: rest =>
    match newline? (skipSpaces rest) with
    | some after => do
      let after ← skipBlankLines (fuel + 1) after
      mlBasicBody fuel after
    | none => do
      let (c, rest) ← readEscape rest
      let (body, after) ← mlBasicBody fuel rest
      .ok (c :: body, after)
  | fuel + 1, '\r' :: '\n' :: rest => do
    let (body, after) ← mlBasicBody fuel rest
    .ok ('\r' :: '\n' :: body, after)
  | fuel + 1, c :: rest =>
    if isBasicChar c || c == '"' || c == '\n' then do
      let (body, after) ← mlBasicBody fuel rest
      .ok (c :: body, after)
    else .error "invalid character in string"

/-- The body of a multi-line literal string after its opening delimiter. -/
def mlLiteralBody : List Char → Except String (List Char × List Char)
  | [] => .error "unterminated string"
  | '\'' :: '\'' :: '\'' :: '\'' :: '\'' :: rest => .ok (['\'', '\''], rest)
  | '\'' :: '\'' :: '\'' :: '\'' :: rest => .ok (['\''], rest)
  | '\'' :: '\'' :: '\'' :: rest => .ok ([], rest)
  | '\r' :: '\n' :: rest => do
    let (body, after) ← mlLiteralBody rest
    .ok ('\r' :: '\n' :: body, after)
  | c :: rest =>
    if isLiteralChar c || c == '\'' || c == '\n' then do
      let (body, after) ← mlLiteralBody rest
      .ok (c :: body, after)
    else .error "invalid character in string"

/-- The characters after a line ending that directly follows an opening delimiter. -/
def dropFirstNewline (cs : List Char) : List Char := (newline? cs).getD cs

/-- A string in any of its four forms, starting at its opening delimiter. -/
def readString : Reader String
  | '"' :: '"' :: '"' :: rest => do
    let (body, after) ← mlBasicBody (rest.length + 1) (dropFirstNewline rest)
    .ok (String.ofList body, after)
  | '"' :: rest => do
    let (body, after) ← basicBody (rest.length + 1) rest
    .ok (String.ofList body, after)
  | '\'' :: '\'' :: '\'' :: rest => do
    let (body, after) ← mlLiteralBody (dropFirstNewline rest)
    .ok (String.ofList body, after)
  | '\'' :: rest => do
    let (body, after) ← literalBody rest
    .ok (String.ofList body, after)
  | _ => .error "expected a string"

/-- One part of a key: bare, or a quoted string on one line. -/
def readSimpleKey : Reader String
  | '"' :: rest =>
    match rest with
    | '"' :: '"' :: _ => .error "multi-line string as key"
    | _ => do
      let (body, after) ← basicBody (rest.length + 1) rest
      .ok (String.ofList body, after)
  | '\'' :: rest =>
    match rest with
    | '\'' :: '\'' :: _ => .error "multi-line string as key"
    | _ => do
      let (body, after) ← literalBody rest
      .ok (String.ofList body, after)
  | cs =>
    let key := cs.takeWhile isBareKeyChar
    if key.isEmpty then .error "expected a key" else .ok (String.ofList key, cs.drop key.length)

/-- The further parts of a dotted key, each after a dot and blanks. -/
def readKeyParts : Nat → Reader (List String)
  | 0, _ => .error "key too long"
  | fuel + 1, cs =>
    match skipSpaces cs with
    | '.' :: rest => do
      let (part, rest) ← readSimpleKey (skipSpaces rest)
      let (parts, rest) ← readKeyParts fuel rest
      .ok (part :: parts, rest)
    | _ => .ok ([], cs)

/-- A dotted key: its parts in order, and the characters after it, blanks not yet skipped. -/
def readKey : Reader (List String) := fun cs => do
  let (first, rest) ← readSimpleKey cs
  let (parts, rest) ← readKeyParts (rest.length + 1) rest
  .ok (first :: parts, rest)

/-- Whether the characters are digits of a kind, each underscore between two of them. -/
def isUnderscored (digit : Char → Bool) (cs : List Char) : Bool :=
  match cs, cs.getLast? with
  | c :: _, some l =>
    digit c && digit l && cs.all (fun d => digit d || d == '_') &&
      !(cs.zip cs.tail).any (fun (a, b) => a == '_' && b == '_')
  | _, _ => false

/-- The integer part of a decimal number: zero, or digits without a leading zero. -/
def isIntegerPart (cs : List Char) : Bool :=
  cs == ['0'] || (isUnderscored Char.isDigit cs && cs.head? != some '0')

/-- The sign of a number and its digits. -/
def splitNumberSign : List Char → Bool × List Char
  | '+' :: rest => (false, rest)
  | '-' :: rest => (true, rest)
  | cs => (false, cs)

/-- The greatest 64-bit signed integer. -/
def int64Max : Int := Nat.pow 2 63 - 1

/-- The least 64-bit signed integer. -/
def int64Min : Int := -(Nat.pow 2 63)

/-- The value of digits in a radix, underscores removed. -/
def radixValue (radix : Nat) (cs : List Char) : Nat :=
  (cs.filter (· != '_')).foldl (fun acc c =>
    let d := if c.isDigit then c.toNat - '0'.toNat
      else if 'a' ≤ c ∧ c ≤ 'f' then c.toNat - 'a'.toNat + 10
      else c.toNat - 'A'.toNat + 10
    acc * radix + d) 0

/-- A 64-bit integer value, or the overflow failure. -/
def integerValue (n : Int) : Except String Value :=
  if int64Min ≤ n ∧ n ≤ int64Max then .ok (.integer n) else .error "integer out of range"

/-- Whether a character is a hexadecimal digit. -/
def isHexDigit (c : Char) : Bool := c.isDigit || ('a' ≤ c && c ≤ 'f') || ('A' ≤ c && c ≤ 'F')

/-- The parts of a float: integer part, fraction digits if any, exponent if any. -/
def splitFloat (cs : List Char) : List Char × Option (List Char) × Option (List Char) :=
  let (intPart, rest) := cs.span fun c => c != '.' && c != 'e' && c != 'E'
  match rest with
  | '.' :: more =>
    let (frac, expPart) := more.span fun c => c != 'e' && c != 'E'
    match expPart with
    | _ :: e => (intPart, some frac, some e)
    | [] => (intPart, some frac, none)
  | _ :: e => (intPart, none, some e)
  | [] => (intPart, none, none)

/-- An exponent: an optional sign and digits. -/
def isExponent (cs : List Char) : Bool :=
  isUnderscored Char.isDigit (splitNumberSign cs).2

/-- The bits of the 64-bit float a decimal text rounds to. -/
def floatBits (neg : Bool) (text : List Char) : UInt64 :=
  let unsigned := (Binary.Format.double.readText (String.ofList (text.filter (· != '_')))).getD 0
  UInt64.ofNat (if neg then unsigned + Binary.Format.double.signBit else unsigned)

/-- The positive infinity of 64-bit floats. -/
def positiveInfinity : UInt64 := 0x7FF0000000000000

/-- A number token: an integer in one of four radices, a float, or a special float. -/
def readNumberToken (tok : List Char) : Except String Value :=
  match tok with
  | ['i', 'n', 'f'] | ['+', 'i', 'n', 'f'] => .ok (.float positiveInfinity)
  | ['-', 'i', 'n', 'f'] => .ok (.float 0xFFF0000000000000)
  | ['n', 'a', 'n'] | ['+', 'n', 'a', 'n'] => .ok (.float 0x7FF8000000000000)
  | ['-', 'n', 'a', 'n'] => .ok (.float 0xFFF8000000000000)
  | '0' :: 'x' :: ds =>
    if isUnderscored isHexDigit ds then integerValue (radixValue 16 ds)
    else .error "invalid hexadecimal integer"
  | '0' :: 'o' :: ds =>
    if isUnderscored (fun c => '0' ≤ c && c ≤ '7') ds then integerValue (radixValue 8 ds)
    else .error "invalid octal integer"
  | '0' :: 'b' :: ds =>
    if isUnderscored (fun c => c == '0' || c == '1') ds then integerValue (radixValue 2 ds)
    else .error "invalid binary integer"
  | _ =>
    let (neg, body) := splitNumberSign tok
    match splitFloat body with
    | (intPart, none, none) =>
      if isIntegerPart intPart then
        let n : Int := radixValue 10 intPart
        integerValue (if neg then -n else n)
      else .error "invalid integer"
    | (intPart, frac, expPart) =>
      let fracOk := match frac with
        | some f => isUnderscored Char.isDigit f
        | none => true
      let expOk := match expPart with
        | some e => isExponent e
        | none => true
      if isIntegerPart intPart && fracOk && expOk then
        let bits := floatBits neg body
        if bits == positiveInfinity then .error "float out of range" else .ok (.float bits)
      else .error "invalid float"

/-- A character a number token may hold. -/
def isNumberChar (c : Char) : Bool :=
  c.isAlphanum || c == '_' || c == '+' || c == '-' || c == '.'

/-- The value of decimal digits. -/
def decimalValue (cs : List Char) : Nat := radixValue 10 cs

/-- Whether a year is a leap year of the Gregorian calendar. -/
def isLeapYear (y : Nat) : Bool := y % 4 == 0 && (y % 100 != 0 || y % 400 == 0)

/-- The number of days of a month of a year. -/
def daysInMonth (y m : Nat) : Nat :=
  if m == 2 then (if isLeapYear y then 29 else 28)
  else if m == 4 || m == 6 || m == 9 || m == 11 then 30 else 31

/-- Whether the characters are that many decimal digits. -/
def isDigits (n : Nat) (cs : List Char) : Bool := cs.length == n && cs.all Char.isDigit

/-- A full date `YYYY-MM-DD` at the front, with its characters. -/
def readDate : Reader (List Char) := fun cs =>
  let date := cs.take 10
  match date with
  | [y1, y2, y3, y4, '-', m1, m2, '-', d1, d2] =>
    if isDigits 4 [y1, y2, y3, y4] && isDigits 2 [m1, m2] && isDigits 2 [d1, d2] then
      let y := decimalValue [y1, y2, y3, y4]
      let m := decimalValue [m1, m2]
      let d := decimalValue [d1, d2]
      if 1 ≤ m && m ≤ 12 && 1 ≤ d && d ≤ daysInMonth y m then .ok (date, cs.drop 10)
      else .error "invalid date"
    else .error "invalid date"
  | _ => .error "invalid date"

/-- A time `HH:MM:SS` with an optional fraction at the front, with its characters. -/
def readTime : Reader (List Char) := fun cs =>
  match cs.take 8 with
  | [h1, h2, ':', m1, m2, ':', s1, s2] =>
    if isDigits 2 [h1, h2] && isDigits 2 [m1, m2] && isDigits 2 [s1, s2] &&
        decimalValue [h1, h2] ≤ 23 && decimalValue [m1, m2] ≤ 59 &&
        decimalValue [s1, s2] ≤ 60 then
      let rest := cs.drop 8
      match rest with
      | '.' :: more =>
        let frac := more.takeWhile Char.isDigit
        if frac.isEmpty then .error "invalid time"
        else .ok (cs.take 8 ++ '.' :: frac, more.drop frac.length)
      | _ => .ok (cs.take 8, rest)
    else .error "invalid time"
  | _ => .error "invalid time"

/-- An optional offset `Z` or `+HH:MM` after a date and time. -/
def readOffset : Reader (List Char)
  | 'Z' :: rest => .ok (['Z'], rest)
  | 'z' :: rest => .ok (['z'], rest)
  | s :: h1 :: h2 :: ':' :: m1 :: m2 :: rest =>
    if (s == '+' || s == '-') && isDigits 2 [h1, h2] && isDigits 2 [m1, m2] then
      if decimalValue [h1, h2] ≤ 23 && decimalValue [m1, m2] ≤ 59 then
        .ok ([s, h1, h2, ':', m1, m2], rest)
      else .error "invalid offset"
    else .ok ([], s :: h1 :: h2 :: ':' :: m1 :: m2 :: rest)
  | cs => .ok ([], cs)

/-- Whether the characters start like a date or a time rather than a number. -/
def startsDateTime (cs : List Char) : Bool :=
  match cs with
  | a :: b :: c :: d :: '-' :: _ => [a, b, c, d].all Char.isDigit
  | a :: b :: ':' :: _ => [a, b].all Char.isDigit
  | _ => false

/-- A date-time, date or time value, kept as written. -/
def readDateTime : Reader Value := fun cs =>
  match cs with
  | _ :: _ :: ':' :: _ => do
    let (time, rest) ← readTime cs
    .ok (.datetime (String.ofList time), rest)
  | _ => do
    let (date, rest) ← readDate cs
    let timeStart : Option (Char × List Char) :=
      match rest with
      | 'T' :: more => some ('T', more)
      | 't' :: more => some ('t', more)
      | ' ' :: a :: b :: ':' :: more =>
        if a.isDigit && b.isDigit then some (' ', a :: b :: ':' :: more) else none
      | _ => none
    match timeStart with
    | some (sep, more) => do
      let (time, rest) ← readTime more
      let (offset, rest) ← readOffset rest
      .ok (.datetime (String.ofList (date ++ sep :: time ++ offset)), rest)
    | none => .ok (.datetime (String.ofList date), rest)

/-- A number, boolean or date-time at the front of the characters. -/
def readScalar : Reader Value := fun cs =>
  match cs with
  | 't' :: 'r' :: 'u' :: 'e' :: rest => .ok (.boolean true, rest)
  | 'f' :: 'a' :: 'l' :: 's' :: 'e' :: rest => .ok (.boolean false, rest)
  | _ =>
    if startsDateTime cs then readDateTime cs
    else
      let tok := cs.takeWhile isNumberChar
      if tok.isEmpty then .error "expected a value"
      else do
        let v ← readNumberToken tok
        .ok (v, cs.drop tok.length)

end VoiceBench.Toml
