import VoiceBench.PathName
import VoiceBench.Media.Dump

/-!
# Echo canceller filter sets

The host writes one dump per pair of a far-end reference and a microphone. A set is read
reference-major, microphone-minor; every file is checked to exist before any is read, so a
missing dump is reported by name before any other failure, and an empty dump is refused.
-/

namespace VoiceBench.Media

/-- The time-domain filter between one reference and one microphone. -/
structure AecFilter where
  reference : Nat
  mic : Nat
  path : String
  coefficients : Array Float32

/-- The file name of a filter's dump, empty when the path has none. -/
def AecFilter.name (f : AecFilter) : String := (PathName.fileName? f.path).getD ""

/-- The reference and microphone pairs of a set, reference-major. -/
def filterPairs (numRef numMics : Nat) : List (Nat × Nat) :=
  (List.range numRef).flatMap fun r => (List.range numMics).map fun m => (r, m)

/-- Reads the filter of one pair from the dump `pathOf` names for it; an empty dump is
refused. -/
def readAecFilter (w : WorkDir) (pathOf : Nat → Nat → String) (pair : Nat × Nat) :
    Except Error AecFilter := do
  let path := pathOf pair.1 pair.2
  let coefficients ← readDump w path
  if coefficients.isEmpty then throw (.invalidInput path "filter dump is empty")
  pure ⟨pair.1, pair.2, path, coefficients.map Float32.ofBits⟩

/-- Whether the dump `pathOf` names for a pair is missing. -/
def dumpMissing (w : WorkDir) (pathOf : Nat → Nat → String) (pair : Nat × Nat) : Bool :=
  !w.isFile (pathOf pair.1 pair.2)

/-- Reads every filter of `numRef` references and `numMics` microphones, the dump of each
pair named by `pathOf`. -/
def readAecFilters (w : WorkDir) (pathOf : Nat → Nat → String) (numRef numMics : Nat) :
    Except Error (List AecFilter) := do
  let pairs := filterPairs numRef numMics
  match pairs.find? (dumpMissing w pathOf) with
  | some (r, m) => throw (.missingFile (pathOf r m))
  | none => pure ()
  pairs.mapM (readAecFilter w pathOf)

end VoiceBench.Media
