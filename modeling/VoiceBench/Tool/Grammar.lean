import VoiceBench.Cli.Spec

/-!
# The command line of the diagnostics tool

Five subcommands: `coherence`, `correlate` and `aec-filter` analyse recordings and filter
dumps and plot the results; `nlmodel` prints a nonlinear model matrix; `enum-table` writes a
lookup header for an enum. Every subcommand also takes the global `--config` file and
`--verbose`.
-/

namespace VoiceBench.Tool

open Cli

/-- The version the tool reports. -/
def version : String := "0.1.0"

/-- Where `enum-table` writes its header unless told otherwise. -/
def defaultTableHeader : String := "src.autogen/control_ret_str_map.h"

/-- The configuration file option. -/
def configOpt : Opt :=
  { id := "config", long := "config", value := some ("FILE", .path), order := 0,
    help := "Configuration file (defaults to the user config, then built-in values)" }

/-- The logging switch. -/
def verboseOpt : Opt :=
  { id := "verbose", long := "verbose", short := some 'v', order := 1,
    help := "Enable debug logging" }

/-- The switch that opens a saved figure. -/
def showOpt (order : Nat) : Opt :=
  { id := "show", long := "show", order := order, help := "Open the figure after saving it" }

/-- `coherence`: coherence of every microphone pair of some recordings. -/
def coherenceCommand : Command where
  name := "coherence"
  about := "Plot magnitude-squared coherence between every microphone pair"
  positional := some
    { id := "inputs", valueName := "WAV", help := "Input WAV files", many := true, kind := .path }
  options := [
    { id := "figname", long := "figname", value := some ("FIGNAME", .path), order := 0,
      help := "Output figure (defaults to the configured coherence figure name)" },
    { id := "csv", long := "csv", value := some ("FILE", .path), order := 1,
      help := "Also write the curves as CSV" },
    showOpt 2]

/-- `correlate`: the delay between the channels of a stereo recording. -/
def correlateCommand : Command where
  name := "correlate"
  about := "Track the delay between the two channels of a stereo recording"
  positional := some
    { id := "input", valueName := "WAV", kind := .path,
      help := "Stereo WAV file (channel 0 microphone, channel 1 reference)" }
  options := [
    { id := "output", long := "output", short := some 'o', value := some ("OUTPUT", .path),
      order := 0, help := "Output figure (defaults to the configured prefix plus the file stem)" },
    { id := "csv", long := "csv", value := some ("FILE", .path), order := 1,
      help := "Also write the per-window results as CSV" },
    showOpt 2]

/-- `aec-filter`: the echo canceller's filters, in time and frequency. -/
def aecFilterCommand : Command where
  name := "aec-filter"
  about := "Plot AEC filter coefficients read from the device"
  positional := some
    { id := "base", valueName := "BASE",
      help := "Filter dump name without the reference/microphone suffix" }
  options := [
    { id := "num_mics", long := "num-mics", short := some 'm', value := some ("NUM_MICS", .size),
      default := some "4", order := 0, help := "Number of microphone inputs" },
    { id := "num_ref", long := "num-ref", short := some 'r', value := some ("NUM_REF", .size),
      default := some "1", order := 1, help := "Number of far-end reference inputs" },
    { id := "rate", long := "rate", value := some ("RATE", .bounded (Nat.pow 2 32 - 1)), order := 2,
      help := "Sample rate of the filters (defaults to the canonical rate)" },
    showOpt 3]

/-- `nlmodel`: a nonlinear model matrix read from a dump. -/
def nlmodelCommand : Command where
  name := "nlmodel"
  about := "Print an NLModel matrix read from the device"
  options := [
    { id := "nlmodel_file", long := "nlmodel-file", short := some 'f',
      value := some ("NLMODEL_FILE", .path), order := 0,
      help := "Binary file holding the NLModel buffer read from the device" },
    { id := "generate_set_file", long := "generate-set-file", short := some 's',
      value := some ("FILE", .path), order := 1,
      help := "Write the payload as a file usable with the set NLModel command" },
    { id := "rows", long := "rows", value := some ("ROWS", .size), requires := ["cols"],
      order := 2, help := "Row count of a dump without a size header" },
    { id := "cols", long := "cols", value := some ("COLS", .size), requires := ["rows"],
      order := 3, help := "Column count of a dump without a size header" }]

/-- `enum-table`: the lookup header of an enum. -/
def enumTableCommand : Command where
  name := "enum-table"
  about := "Generate a C string table for an enum in a header"
  positional := some
    { id := "header", valueName := "HEADER", kind := .path, help := "C header declaring the enum" }
  options := [
    { id := "enum_name", long := "enum-name", value := some ("ENUM_NAME", .text),
      default := some "control_ret_t", order := 0, help := "Typedef name of the enum" },
    { id := "output", long := "output", short := some 'o', value := some ("OUTPUT", .path),
      default := some defaultTableHeader, order := 1,
      help := "Generated header path" },
    { id := "check", long := "check", order := 2,
      help := "Compare with the existing output instead of writing it" }]

/-- The tool's command line. -/
def grammar : Program where
  name := "frontscope"
  version := version
  about := "Voice front-end diagnostics CLI"
  globals := [configOpt, verboseOpt]
  commands := [coherenceCommand, correlateCommand, aecFilterCommand, nlmodelCommand,
    enumTableCommand]

end VoiceBench.Tool
