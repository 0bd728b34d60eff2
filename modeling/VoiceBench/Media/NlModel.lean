import VoiceBench.Binary.Text
import VoiceBench.PathName
import VoiceBench.Media.Dump
import VoiceBench.Text.Search

/-!
# Non-linear model matrices

An NLModel is a row-major matrix of singles read from a dump. Its dimensions come either
from the first two values of the dump (`Layout.header`), which must be non-negative whole
numbers, or from elsewhere (`Layout.explicit`), such as a file name ending in
`.r<rows>.c<cols>`. The payload must hold exactly `rows * cols` values, and a product past
the machine word is refused before the payload is counted.

The text of a matrix writes each row between brackets, values in scientific notation with
six decimals, the whole between a second pair of brackets, one row per line. Values are held
as the bits of their encodings, as a dump holds them.
-/

namespace VoiceBench.Media

open Binary

/-- Where the dimensions of a matrix come from. -/
inductive Layout where
  | header
  | explicit (rows cols : Nat)
  deriving DecidableEq, Repr

/-- A row-major matrix of singles, each given by the bits of its encoding. -/
structure NlModel where
  rows : Nat
  cols : Nat
  coefficients : Array UInt32

/-- The largest machine word. -/
def wordMax : Nat := Nat.pow 2 64 - 1

namespace NlModel

/-- The matrix of the coefficients, if their number is `rows * cols`. -/
def new? (rows cols : Nat) (coefficients : Array UInt32) : Option NlModel :=
  if rows * cols = coefficients.size then some ⟨rows, cols, coefficients⟩ else none

/-- The coefficient at a row and column inside the matrix. -/
def get? (m : NlModel) (row col : Nat) : Option UInt32 :=
  if row < m.rows ∧ col < m.cols then m.coefficients[row * m.cols + col]? else none

/-- A row inside the matrix. -/
def row? (m : NlModel) (row : Nat) : Option (Array UInt32) :=
  if row < m.rows then some (m.coefficients.extract (row * m.cols) ((row + 1) * m.cols))
  else none

/-- The text of the matrix, one line per row. -/
def display (m : NlModel) : String :=
  String.join ((List.range m.rows).map fun r =>
    let values := ((m.row? r).getD #[]).toList.map fun v => Format.single.expText v.toNat 6
    let open_ := if r = 0 then "[[" else " ["
    let close := if r + 1 = m.rows then "]]" else "]"
    open_ ++ " ".intercalate values ++ close ++ "\n")

end NlModel

/-- A header value as a count: finite, not negative and whole; counts past the machine word
are the largest word. -/
def headerCount (path what : String) (value : UInt32) : Except Error Nat :=
  match Format.single.unpack value.toNat with
  | .finite neg m e =>
    let whole := if 0 ≤ e then some (m * Nat.pow 2 e.toNat) else
      if m % Nat.pow 2 (-e).toNat = 0 then some (m / Nat.pow 2 (-e).toNat) else none
    match whole with
    | some n => if neg ∧ n ≠ 0 then bad else .ok (min n wordMax)
    | none => bad
  | _ => bad
where
  bad : Except Error Nat :=
    .error (.invalidInput path
      s!"{what} count {Format.single.plainText value.toNat} is not a non-negative integer")

/-- Reads a matrix from a dump in the given layout. -/
def readNlModel (w : WorkDir) (path : String) (layout : Layout) : Except Error NlModel := do
  let values ← readDump w path
  let (rows, cols, payload) ← match layout with
    | .header =>
      if values.size < 2 then throw (.invalidInput path "missing row/column header")
      else
        let rows ← headerCount path "row" (values.getD 0 0)
        let cols ← headerCount path "column" (values.getD 1 0)
        pure (rows, cols, values.extract 2 values.size)
    | .explicit rows cols => pure (rows, cols, values)
  let expected := rows * cols
  if expected > wordMax then throw (.invalidInput path s!"{rows} x {cols} matrix is too large")
  if payload.size ≠ expected then throw (.lengthMismatch path expected payload.size)
  pure ⟨rows, cols, payload⟩

/-- A decimal count without sign, or with a plus sign, that fits a machine word. -/
def readCount? (s : String) : Option Nat :=
  let digits := match s.toList with
    | '+' :: rest => rest
    | cs => cs
  if digits.isEmpty || !digits.all Char.isDigit then none
  else
    let n := digits.foldl (fun acc c => 10 * acc + (c.toNat - 48)) 0
    if n ≤ wordMax then some n else none

/-- The dimensions in a file name ending in `.r<rows>.c<cols>`: the name is split at its
last `.c`, and what precedes it at its last `.r`. -/
def dimsFromName (path : String) : Option (Nat × Nat) := do
  let name ← PathName.fileName? path
  let (rest, cols) ← Text.splitLast? name ".c"
  let (_, rows) ← Text.splitLast? rest ".r"
  pure ((← readCount? rows), (← readCount? cols))

end VoiceBench.Media
