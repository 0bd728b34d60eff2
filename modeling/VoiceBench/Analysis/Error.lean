/-!
# Analysis failures

Why an analysis refuses its input: a signal shorter than one analysis window, two signals
of different lengths that must be analysed together, a parameter outside its range, or a
channel a recording does not have. `AnalysisError.message` holds the wording.
-/

namespace VoiceBench.Analysis

/-- A failure of an analysis. -/
inductive AnalysisError where
  | signalTooShort (len window : Nat)
  | lengthMismatch (a b : Nat)
  | invalidParameter (name reason : String)
  | channelOutOfRange (index channels : Nat)
  deriving DecidableEq, Repr

namespace AnalysisError

/-- The text of a failure. -/
def message : AnalysisError → String
  | signalTooShort len window =>
    s!"signal of {len} samples is shorter than one {window}-sample analysis window"
  | lengthMismatch a b => s!"signal lengths differ: {a} vs {b} samples"
  | invalidParameter name reason => s!"invalid parameter '{name}': {reason}"
  | channelOutOfRange index channels =>
    s!"channel {index} out of range for a {channels}-channel recording"

end AnalysisError

end VoiceBench.Analysis
