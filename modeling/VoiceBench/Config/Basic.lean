import VoiceBench.Binary.Fused
import VoiceBench.PathName
import VoiceBench.Text.Search

/-!
# Tool configuration

Every constant the analysis tools depend on, in four sections: analysis (canonical and
minimum sample rate, window sizes, overlap), the external resampler, the naming of dump and
output files, and figure geometry. Each field has a default, so an empty configuration is
the built-in one.

The derived values are computed as the tools use them: the coherence window scales the
base window by the ratio of the sample rate to the canonical rate, in integers rounded
down; the hop of a window is `(1 - overlap) * window` in single precision, truncated, and at
least one; file names substitute `{base}`, `{ref}`, `{mic}`, `{rows}` and `{cols}` in their
patterns, one placeholder after the other.
-/

namespace VoiceBench.Config

open Binary

/-- Analysis constants. -/
structure AnalysisConfig where
  canonicalRate : Nat := 16000
  minRate : Nat := 8000
  coherenceBaseWindow : Nat := 512
  correlationWindow : Nat := 32768
  overlap : Float32 := 0.5

/-- How the external resampler is run and where its output goes. -/
structure ResamplerConfig where
  program : String := "sox"
  suffix : String := "_16khz"
  outputDir : Option String := none

/-- Naming of dumps and outputs. -/
structure FileConfig where
  aecFilterPattern : String := "{base}.f{ref}.m{mic}"
  nlmodelPattern : String := "{base}.r{rows}.c{cols}"
  nlmodelFile : String := "nlm_buffer.bin"
  coherenceFigure : String := "mic_coherence.png"
  correlationPrefix : String := "plot_correlation_"

/-- Figure size in pixels. -/
structure PlotConfig where
  width : Nat := 2800
  height : Nat := 1400

/-- The whole configuration. -/
structure ToolConfig where
  analysis : AnalysisConfig := {}
  resampler : ResamplerConfig := {}
  files : FileConfig := {}
  plot : PlotConfig := {}

namespace AnalysisConfig

/-- The coherence segment length at a sample rate: `base * rate / canonical`, rounded down,
where the product is a 64-bit machine word and wraps. -/
def coherenceWindow (a : AnalysisConfig) (sampleRate : Nat) : Nat :=
  a.coherenceBaseWindow * sampleRate % Nat.pow 2 64 / a.canonicalRate

/-- The hop between windows of a length: `(1 - overlap) * window` in single precision,
converted to a 64-bit machine word (truncated, clamped to the word's range), and at least
one. -/
def hop (a : AnalysisConfig) (window : Nat) : Nat :=
  max ((castSingle 0 (Nat.pow 2 64 - 1) ((1 - a.overlap) * singleOfNat window)).toNat) 1

end AnalysisConfig

namespace FileConfig

/-- The dump of the filter between reference `reference` and microphone `mic`. -/
def aecFilterPath (f : FileConfig) (base : String) (reference mic : Nat) : String :=
  Text.substitute f.aecFilterPattern
    [("{base}", base), ("{ref}", toString reference), ("{mic}", toString mic)]

/-- The dump of an explicit-layout matrix of `rows` by `cols`. -/
def nlmodelPath (f : FileConfig) (base : String) (rows cols : Nat) : String :=
  Text.substitute f.nlmodelPattern
    [("{base}", base), ("{rows}", toString rows), ("{cols}", toString cols)]

/-- The correlation figure of a recording stem. -/
def correlationFigure (f : FileConfig) (stem : String) : String :=
  f.correlationPrefix ++ stem ++ ".png"

end FileConfig

/-- The resampled copy of an input: its stem followed by the suffix and `.wav`, in the
output directory if there is one. -/
def ResamplerConfig.outputPath (r : ResamplerConfig) (input : String) : String :=
  let name := (PathName.fileStem? input).getD "" ++ r.suffix ++ ".wav"
  match r.outputDir with
  | some dir => PathName.join dir name
  | none => name

end VoiceBench.Config
