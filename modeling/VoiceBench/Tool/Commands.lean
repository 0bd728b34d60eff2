import VoiceBench.Tool.Failure
import VoiceBench.Cli.Parse
import VoiceBench.Config.Basic
import VoiceBench.Media.NlModel
import VoiceBench.Media.Dump
import VoiceBench.Media.Recording
import VoiceBench.Media.AecFilter
import VoiceBench.Analysis.Coherence
import VoiceBench.Analysis.Delay
import VoiceBench.Analysis.FilterResponse
import VoiceBench.Analysis.Pairs
import VoiceBench.Codegen.Table
import VoiceBench.PathName
import VoiceBench.Libraries

/-!
# The subcommands of the diagnostics tool

Each subcommand is a `ToolM` computation over the configuration and its arguments.

* `nlmodel` reads a model dump (from `--nlmodel-file` or the configured name), with the
  dimensions given, taken from the file name or read from the dump's header, prints it and
  optionally writes its payload back as a dump.
* `enum-table` reads an enum from a header and writes its lookup header, or with `--check`
  compares it with the one present.
* `coherence`, `correlate` and `aec-filter` load their inputs, print what they measure and
  save a figure. Recordings are analysed at the canonical rate; one at another rate would have
  to pass through the external resampler, which is not available, so it fails there. Figures
  are not drawn: the file saved holds the PNG signature alone.
-/

namespace VoiceBench.Tool

open Cli Config Media Analysis Binary

/-- The natural-number value of an argument. -/
def natArg? (args : Given) (id : String) : Option Nat := (args.text? id).bind String.toNat?

/-- Loads a recording at the canonical rate; one below the minimum rate is refused. -/
def loadCanonical (wav : WavCodec) (cfg : ToolConfig) (path : String) : ToolM Recording := do
  let w ← files
  if !w.isFile path then fail s!"Error: {path} is not a file."
  let info ← liftWith Failure.ofMedia (readWavInfo wav w path)
  if info.sampleRate < cfg.analysis.minRate then
    fail s!"{path}: sample rate {info.sampleRate} Hz is below the minimum of {cfg.analysis.minRate} Hz"
  if info.sampleRate ≠ cfg.analysis.canonicalRate then
    throw (Failure.ofIo s!"failed to run resampler '{cfg.resampler.program}': {IoError.notFound.message}"
      .notFound)
  liftWith Failure.ofMedia (readRecording wav w path)

/-- The signature that opens every PNG file. -/
def pngSignature : List UInt8 := [0x89, 0x50, 0x4E, 0x47, 0x0D, 0x0A, 0x1A, 0x0A]

/-- Saves a figure and says where. -/
def saveFigure (path : String) : ToolM Unit := do
  match (← files).write path pngSignature with
  | .ok w => setFiles w
  | .error e => fail s!"rendering failed: {e.message}"
  say s!"Plot saved in {path}"

/-- Writes an exported table of results. -/
def exportText (path text : String) : ToolM Unit := do
  match (← files).write path text.toUTF8.toList with
  | .ok w => setFiles w
  | .error e => throw (Failure.ofIo s!"export failed: {e.message}" e)

/-- Coherence curves sharing a frequency axis as comma-separated values: the frequency, then
one column per curve, as many rows as the shortest curve has. -/
def coherenceCsv (curves : List (String × Coherence)) : String :=
  let head := "frequency_hz" ++ String.join (curves.map fun (label, _) => "," ++ label) ++ "\n"
  match curves with
  | [] => head
  | (_, first) :: _ =>
    let rows := (curves.map fun (_, c) => c.values.size).foldl min first.values.size
    head ++ String.join ((List.range rows).map fun i =>
      singlePlaces (first.frequencies.getD i 0) 3 ++
        String.join (curves.map fun (_, c) => "," ++ singlePlaces (c.values.getD i 0) 6) ++ "\n")

/-- The windows of a delay analysis as comma-separated values. -/
def delayCsv (d : DelayAnalysis) : String :=
  "time_s,lag_samples,peak_to_average\n" ++ String.join (d.windows.map fun w =>
    s!"{singlePlaces w.timeS 6},{w.lag},{singlePlaces w.peakToAverage 6}\n")

/-- A channel of a recording. -/
def channelOf (r : Recording) (index : Nat) : ToolM (Array Float32) :=
  match r.channel? index with
  | some c => pure c
  | none => throw (Failure.ofAnalysis (.channelOutOfRange index r.numChannels))

/-- `coherence`: the coherence of every pair of channels of each recording, after cutting
all recordings to the shortest. -/
def runCoherence (libs : Libraries) (cfg : ToolConfig) (args : Given) : ToolM Unit := do
  let recordings ← ((args.values? "inputs").getD []).mapM (loadCanonical libs.wav cfg)
  let (minLength, recordings) := truncateToCommon recordings
  say s!"min_length = {minLength}"
  let pairs := pairsForSources (recordings.map Recording.numChannels)
  if pairs.isEmpty then fail "no channel pairs to compare: every input has a single channel"
  say s!"total_num_subplots = {pairs.length}"
  let curves ← pairs.mapM fun pair => do
    let r := recordings.getD pair.source { name := "", path := "", sampleRate := 0, channels := [] }
    let window := cfg.analysis.coherenceWindow r.sampleRate
    let analyzer ← liftWith Failure.ofAnalysis
      (CoherenceAnalyzer.withOverlap (singleOfNat r.sampleRate) window cfg.analysis.overlap)
    let a ← channelOf r pair.a
    let b ← channelOf r pair.b
    let coherence ← liftWith Failure.ofAnalysis (analyzer.analyze libs.fft a b)
    say s!"{r.name} {pair.label}: mean coherence {singlePlaces coherence.mean 3}"
    pure (s!"{r.name}:{pair.label}", coherence)
  if let some csv := args.text? "csv" then
    exportText csv (coherenceCsv curves)
    say s!"Coherence data saved in {csv}"
  saveFigure ((args.text? "figname").getD cfg.files.coherenceFigure)

/-- `correlate`: the delay between the microphone (channel 0) and the reference (channel 1)
of a stereo recording, window by window. -/
def runCorrelate (libs : Libraries) (cfg : ToolConfig) (args : Given) : ToolM Unit := do
  let r ← loadCanonical libs.wav cfg ((args.text? "input").getD "")
  let (mic, reference) ← match r.channel? 0, r.channel? 1 with
    | some mic, some reference =>
      if r.numChannels = 2 then pure (mic, reference)
      else fail s!"Error: Only stereo files supported. {r.numChannels} channels file given."
    | _, _ => fail s!"Error: Only stereo files supported. {r.numChannels} channels file given."
  let window := cfg.analysis.correlationWindow
  let estimator ← liftWith Failure.ofAnalysis
    (DelayEstimator.new window (cfg.analysis.hop window) r.sampleRate)
  let analysis ← liftWith Failure.ofAnalysis (estimator.analyze libs.fft mic reference)
  say s!"{r.name}: {analysis.windows.length} windows of {analysis.window} samples"
  if let (some overall, some dominant) := (analysis.overallLag, analysis.dominantLag) then
    say s!"Mean correlation peak at lag {overall} samples, most frequent window lag {dominant}"
  if let some csv := args.text? "csv" then
    exportText csv (delayCsv analysis)
    say s!"Delay data saved in {csv}"
  saveFigure ((args.text? "output").getD (cfg.files.correlationFigure r.name))

/-- The name of a dump up to the first dot of its file name. -/
def baseName (path : String) : String :=
  ((PathName.fileName? path).map fun n => (n.splitOn ".").headD "").getD ""

/-- `aec-filter`: the magnitude response of every filter between a reference and a
microphone. -/
def runAecFilter (fft : Spectrum.Fft) (cfg : ToolConfig) (args : Given) : ToolM Unit := do
  let numMics := (natArg? args "num_mics").getD 0
  let numRef := (natArg? args "num_ref").getD 0
  if numMics = 0 ∨ numRef = 0 then fail "at least one reference and one microphone are required"
  let rate := (natArg? args "rate").getD cfg.analysis.canonicalRate
  let base := (args.text? "base").getD ""
  let filters ← liftWith Failure.ofMedia
    (readAecFilters (← files) (cfg.files.aecFilterPath base) numRef numMics)
  if filters.isEmpty then fail "no filter files to plot"
  for f in filters do
    let response ← liftWith Failure.ofAnalysis
      (FilterResponse.ofImpulse fft f.coefficients (singleOfNat rate))
    say s!"{f.name}: Magnitude response peak = {singleText response.peakDb} dB"
  saveFigure (match filters.head? with
    | some f => baseName f.path ++ ".png"
    | none => "aec_filter.png")

/-- `nlmodel`: prints a model matrix and optionally writes its payload. -/
def runNlModel (cfg : ToolConfig) (args : Given) : ToolM Unit := do
  let path := (args.text? "nlmodel_file").getD cfg.files.nlmodelFile
  if !(← files).isFile path then fail s!"Error: file {path} not found"
  let layout : Layout := match natArg? args "rows", natArg? args "cols" with
    | some rows, some cols => .explicit rows cols
    | _, _ =>
      match dimsFromName path with
      | some (rows, cols) => .explicit rows cols
      | none => .header
  let model ← liftWith Failure.ofMedia (readNlModel (← files) path layout)
  say s!"NLModel matrix has {model.rows} rows and {model.cols} columns"
  sayText model.display
  if let some out := args.text? "generate_set_file" then
    setFiles (← liftWith Failure.ofMedia (writeDump (← files) out model.coefficients))
    say s!"Set file saved in {out}"

/-- `enum-table`: writes the lookup header of an enum, or checks the one present. -/
def runEnumTable (args : Given) : ToolM Unit := do
  let header := (args.text? "header").getD ""
  let enumName := (args.text? "enum_name").getD ""
  let output := (args.text? "output").getD ""
  let d ← liftWith Failure.ofCodegen (Codegen.parseEnumFile (← files) header enumName)
  let table := Codegen.Table.ofDefinition d
  say s!"{enumName}: {d.entries.length} enumerators, highest value {d.maxValue?.getD 0}"
  if args.has "check" then
    match (← files).readText output with
    | .error e => fail s!"failed to read {output}: {e.message}"
    | .ok existing =>
      if !Codegen.headersEquivalent existing (Codegen.renderHeader table enumName) then
        fail s!"{output} is out of date"
      say s!"{output} is up to date"
  else
    setFiles (← liftWith Failure.ofCodegen (Codegen.writeHeader (← files) output table enumName))
    say s!"Lookup table saved in {output}"

end VoiceBench.Tool
