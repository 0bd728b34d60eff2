import VoiceBench.WorkDir
import VoiceBench.Media.Error
import VoiceBench.Analysis.Error
import VoiceBench.Codegen.Enum
import VoiceBench.Config.Load

/-!
# Failures of the diagnostics tool

A subcommand prints lines as it goes and may stop with a failure, which the tool reports on
standard error as `Error: ` and its message, followed by the chain of failures that caused
it, and ends with status 1. What was printed before stays printed, and files written before
stay written: `ToolM` keeps both.
-/

namespace VoiceBench.Tool

/-- Why a subcommand stopped: its message and the messages of the failures beneath it,
outermost first. -/
structure Failure where
  message : String
  causes : List String := []
  deriving Repr

namespace Failure

/-- A cause under a `Caused by:` heading: indented by four columns, or numbered when there
are several. -/
def causeText (numbered : Bool) (n : Nat) (cause : String) : String :=
  let lead := if numbered then spacesTo 5 (toString n) ++ ": " else "    "
  let follow := if numbered then "       " else "    "
  lead ++ ("\n" ++ follow).intercalate (cause.splitOn "\n")
where
  spacesTo (width : Nat) (s : String) : String :=
    String.ofList (List.replicate (width - s.length) ' ') ++ s

/-- The report on standard error. -/
def report (f : Failure) : String :=
  let chain := match f.causes with
    | [] => ""
    | cs =>
      "\n\nCaused by:" ++ String.join ((List.range cs.length).zip cs |>.map fun (n, c) =>
        "\n" ++ causeText (cs.length > 1) n c)
  "Error: " ++ f.message ++ chain ++ "\n"

/-- A failure of a file operation, whose own text is its cause. -/
def ofIo (message : String) (e : IoError) : Failure := ⟨message, [e.message]⟩

/-- A failure of reading recordings and dumps. -/
def ofMedia : Media.Error → Failure
  | .wav e => ⟨"WAV file error: " ++ e.message, [e.message]⟩
  | .io m => ⟨"IO error: " ++ m, [m]⟩
  | e => ⟨e.message, []⟩

/-- A failure of an analysis. -/
def ofAnalysis (e : Analysis.AnalysisError) : Failure := ⟨e.message, []⟩

/-- A failure of reading an enum or writing its table. -/
def ofCodegen : Codegen.Error → Failure
  | e@(.cannotRead _ cause) | e@(.cannotWrite _ cause) => ⟨e.message, [cause.message]⟩
  | e => ⟨e.message, []⟩

/-- A failure of loading the configuration. -/
def ofConfig : Config.ConfigError → Failure
  | e@(.unreadable _ cause) => ⟨e.message, [cause.message]⟩
  | e@(.tomlParse detail) => ⟨e.message, [detail]⟩
  | e => ⟨e.message, []⟩

end Failure

/-- What a subcommand has done so far: the text printed and the working directory. -/
structure Progress where
  stdout : String := ""
  files : WorkDir

/-- A subcommand's computation: it prints, changes files and may fail. -/
abbrev ToolM := ExceptT Failure (StateM Progress)

/-- Prints a line. -/
def say (line : String) : ToolM Unit :=
  modify fun p => { p with stdout := p.stdout ++ line ++ "\n" }

/-- Prints text as it is. -/
def sayText (text : String) : ToolM Unit :=
  modify fun p => { p with stdout := p.stdout ++ text }

/-- Stops with a message. -/
def fail {α : Type} (message : String) : ToolM α := throw { message }

/-- The working directory as it is now. -/
def files : ToolM WorkDir := do pure (← get).files

/-- Replaces the working directory. -/
def setFiles (w : WorkDir) : ToolM Unit := modify fun p => { p with files := w }

/-- A result of another part of the library, its failure turned into a `Failure`. -/
def liftWith {ε α : Type} (f : ε → Failure) : Except ε α → ToolM α
  | .ok a => pure a
  | .error e => throw (f e)

end VoiceBench.Tool
