/-!
# Failures of recordings and dumps

A WAV file fails to be written or read when it is ill-formed, uses a layout that is not
handled, or ends early; a dump fails when it is missing, has a size that is not a whole
number of values, or holds another number of values than its layout requires. A program
defect that would stop the tools outright is the failure `abort` with its message.
-/

namespace VoiceBench.Media

/-- Why a WAV file cannot be written or read. -/
inductive WavError where
  | io (message : String)
  | format (reason : String)
  | tooWide
  | unfinishedSample
  | unsupported
  | invalidSampleFormat
  deriving DecidableEq, Repr

/-- The text of a WAV failure. -/
def WavError.message : WavError → String
  | io m => m
  | format reason => "Ill-formed WAVE file: " ++ reason
  | tooWide => "The sample has more bits than the destination type."
  | unfinishedSample => "The number of samples written is not a multiple of the number of channels."
  | unsupported => "The wave format of the file is not supported."
  | invalidSampleFormat => "The sample format differs from the destination format."

/-- The failure of reading past the end of a file. -/
def WavError.endOfFile : WavError := .io "failed to fill whole buffer"

/-- Why a recording or a dump cannot be used. -/
inductive Error where
  | wav (e : WavError)
  | missingFile (path : String)
  | lengthMismatch (path : String) (expected actual : Nat)
  | invalidInput (path reason : String)
  | io (message : String)
  | abort (message : String)
  deriving DecidableEq, Repr

/-- The text of a failure. -/
def Error.message : Error → String
  | wav e => "WAV file error: " ++ e.message
  | missingFile path => s!"file {path} not found"
  | lengthMismatch path expected actual => s!"{path}: expected {expected} values, found {actual}"
  | invalidInput path reason => s!"invalid input {path}: {reason}"
  | io message => "IO error: " ++ message
  | abort message => message

end VoiceBench.Media
