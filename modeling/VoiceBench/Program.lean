import VoiceBench.WorkDir

/-!
# Program runs

A command-line program is modelled as a function from its arguments and the working directory
it starts in to what the run leaves: the text on its standard output and standard error, its
exit status and the working directory afterwards.
-/

namespace VoiceBench

/-- What a run of a command-line program leaves behind. -/
structure ProgramRun where
  stdout : String := ""
  stderr : String := ""
  exitCode : Nat := 0
  files : WorkDir
  deriving Inhabited

end VoiceBench
