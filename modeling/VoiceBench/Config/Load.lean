import VoiceBench.Config.Basic
import VoiceBench.Toml.Codec
import VoiceBench.Toml.Decode
import VoiceBench.WorkDir
import VoiceBench.Text.Blank

/-!
# Reading and checking a configuration

A configuration file is a TOML document, read by a TOML library, whose tables are the
sections; every section and key is optional, unknown ones are ignored. Values must have the field's type: rates and
figure sizes are 32-bit unsigned integers, window lengths machine words, the overlap a
number (an integer is rounded to the nearest single), names strings.

A configuration is usable when the canonical rate is not zero and not below the minimum
rate, both windows are at least two, the overlap lies in `[0, 1)`, the resampler program is
not blank, each naming pattern has all its placeholders and the figure has an area; the
checks run in that order and the first failure is reported.

The tools take the file given on their command line, else the user's file when there is
one, else the built-in configuration.
-/

namespace VoiceBench.Config

open Toml Binary

/-- Why a configuration cannot be used. -/
inductive ConfigError where
  | unreadable (path : String) (e : IoError)
  | tomlParse (detail : String)
  | invalidValue (key reason : String)
  deriving Repr

/-- The text of a failure. -/
def ConfigError.message : ConfigError → String
  | unreadable path e => s!"failed to read file '{path}': {e.message}"
  | tomlParse detail => "failed to parse TOML: " ++ detail
  | invalidValue key reason => s!"invalid value for '{key}': {reason}"

/-- The name of the failure's cause, as reports spell it. -/
def ConfigError.kind : ConfigError → String
  | unreadable .. => "ReadFile"
  | tomlParse .. => "TomlParse"
  | invalidValue .. => "InvalidValue"

/-- A single: a float rounded from its double, an integer rounded directly. -/
def f32Of (v : Toml.Value) : Decode Float32 :=
  match v with
  | .float bits => .ok (singleOfBits (Format.convert .double .single bits.toNat))
  | .integer n => .ok (singleOfInt n)
  | _ => invalidType v "f32"

/-- A section read from a value, its fields by name. -/
def sectionOf (record : String) (names : List String) (v : Toml.Value) : Decode Fields :=
  Fields.of record names v

/-- The analysis section. -/
def AnalysisConfig.ofToml (v : Toml.Value) : Decode AnalysisConfig := do
  let fs ← sectionOf "AnalysisConfig"
    ["canonical_rate", "min_rate", "coherence_base_window", "correlation_window", "overlap"] v
  let d : AnalysisConfig := {}
  pure { canonicalRate := ← fs.getD "canonical_rate" u32Of d.canonicalRate
         minRate := ← fs.getD "min_rate" u32Of d.minRate
         coherenceBaseWindow := ← fs.getD "coherence_base_window" usizeOf d.coherenceBaseWindow
         correlationWindow := ← fs.getD "correlation_window" usizeOf d.correlationWindow
         overlap := ← fs.getD "overlap" f32Of d.overlap }

/-- The resampler section. -/
def ResamplerConfig.ofToml (v : Toml.Value) : Decode ResamplerConfig := do
  let fs ← sectionOf "ResamplerConfig" ["program", "suffix", "output_dir"] v
  let d : ResamplerConfig := {}
  pure { program := ← fs.getD "program" stringOf d.program
         suffix := ← fs.getD "suffix" stringOf d.suffix
         outputDir := ← fs.getD "output_dir" (fun s => some <$> stringOf s) d.outputDir }

/-- The file naming section. -/
def FileConfig.ofToml (v : Toml.Value) : Decode FileConfig := do
  let fs ← sectionOf "FileConfig" ["aec_filter_pattern", "nlmodel_pattern", "nlmodel_file",
    "coherence_figure", "correlation_prefix"] v
  let d : FileConfig := {}
  pure { aecFilterPattern := ← fs.getD "aec_filter_pattern" stringOf d.aecFilterPattern
         nlmodelPattern := ← fs.getD "nlmodel_pattern" stringOf d.nlmodelPattern
         nlmodelFile := ← fs.getD "nlmodel_file" stringOf d.nlmodelFile
         coherenceFigure := ← fs.getD "coherence_figure" stringOf d.coherenceFigure
         correlationPrefix := ← fs.getD "correlation_prefix" stringOf d.correlationPrefix }

/-- The plot section. -/
def PlotConfig.ofToml (v : Toml.Value) : Decode PlotConfig := do
  let fs ← sectionOf "PlotConfig" ["width", "height"] v
  let d : PlotConfig := {}
  pure { width := ← fs.getD "width" u32Of d.width, height := ← fs.getD "height" u32Of d.height }

/-- A whole configuration read from a document. -/
def ToolConfig.ofToml (entries : List (String × Toml.Value)) : Decode ToolConfig := do
  let fs ← sectionOf "FrontscopeConfig" ["analysis", "resampler", "files", "plot"] (.table entries)
  pure { analysis := ← fs.getD "analysis" AnalysisConfig.ofToml {}
         resampler := ← fs.getD "resampler" ResamplerConfig.ofToml {}
         files := ← fs.getD "files" FileConfig.ofToml {}
         plot := ← fs.getD "plot" PlotConfig.ofToml {} }

/-- The first placeholder that does not occur in a pattern. -/
def missingPlaceholder (pattern : String) (placeholders : List String) : Option String :=
  placeholders.find? fun p => !p.toList.isInfixOf_internal pattern.toList

/-- The first reason the configuration is unusable. -/
def ToolConfig.validate (c : ToolConfig) : Except ConfigError Unit := do
  let a := c.analysis
  if a.canonicalRate = 0 then throw (.invalidValue "analysis.canonical_rate" "must be non-zero")
  if a.minRate > a.canonicalRate then
    throw (.invalidValue "analysis.min_rate"
      s!"{a.minRate} exceeds canonical rate {a.canonicalRate}")
  if a.coherenceBaseWindow < 2 then
    throw (.invalidValue "analysis.coherence_base_window" "must be at least 2")
  if a.correlationWindow < 2 then
    throw (.invalidValue "analysis.correlation_window" "must be at least 2")
  if !(0 ≤ a.overlap ∧ a.overlap < 1) then
    throw (.invalidValue "analysis.overlap" "must be in [0, 1)")
  if c.resampler.program.all Text.isBlank then
    throw (.invalidValue "resampler.program" "must not be empty")
  match missingPlaceholder c.files.aecFilterPattern ["{base}", "{ref}", "{mic}"] with
  | some p => throw (.invalidValue "files.aec_filter_pattern" s!"missing {p}")
  | none => pure ()
  match missingPlaceholder c.files.nlmodelPattern ["{base}", "{rows}", "{cols}"] with
  | some p => throw (.invalidValue "files.nlmodel_pattern" s!"missing {p}")
  | none => pure ()
  if c.plot.width = 0 ∨ c.plot.height = 0 then
    throw (.invalidValue "plot" "figure size must be non-zero")

/-- A configuration read from TOML text and checked. -/
def ToolConfig.ofText (toml : Toml.Codec) (text : String) : Except ConfigError ToolConfig := do
  let entries ← match toml.parse text with
    | .ok e => pure e
    | .error e => throw (.tomlParse e)
  let c ← match ToolConfig.ofToml entries with
    | .ok c => pure c
    | .error e => throw (.tomlParse e)
  c.validate
  pure c

/-- The user's configuration file inside the working directory. -/
def userConfigPath : String := ".config/frontscope/config.toml"

/-- A configuration read from a file. -/
def ToolConfig.load (toml : Toml.Codec) (w : WorkDir) (path : String) :
    Except ConfigError ToolConfig :=
  match w.readText path with
  | .error e => .error (.unreadable path e)
  | .ok text => ToolConfig.ofText toml text

/-- The configuration of a run: the given file, else the user's file, else the defaults. -/
def ToolConfig.resolve (toml : Toml.Codec) (w : WorkDir) (explicit : Option String) :
    Except ConfigError ToolConfig :=
  match explicit with
  | some path => ToolConfig.load toml w path
  | none => if w.isFile userConfigPath then ToolConfig.load toml w userConfigPath else .ok {}

end VoiceBench.Config
