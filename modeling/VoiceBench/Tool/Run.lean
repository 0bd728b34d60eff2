import VoiceBench.Program
import VoiceBench.Tool.Grammar
import VoiceBench.Tool.Commands
import VoiceBench.Config.Load

/-!
# Running the diagnostics tool

`run` reads the command line: help and version are printed on standard output; a refused
line prints its report on standard error and ends with status 2, as does an empty line, which
prints the help there. A subcommand runs under the configuration `--config` names, or the
user's configuration file, or the defaults; a configuration that cannot be loaded, or a
failing subcommand, ends the run with status 1.
-/

namespace VoiceBench.Tool

open Cli Config

/-- The subcommand of a name, over a configuration and its arguments. -/
def commandRun (libs : Libraries) (cfg : ToolConfig) (args : Given) : String → ToolM Unit
  | "coherence" => runCoherence libs cfg args
  | "correlate" => runCorrelate libs cfg args
  | "aec-filter" => runAecFilter libs.fft cfg args
  | "nlmodel" => runNlModel cfg args
  | "enum-table" => runEnumTable args
  | _ => pure ()

/-- The run that ends with a failure. -/
def failedRun (stdout : String) (f : Failure) (w : WorkDir) : ProgramRun :=
  { stdout, stderr := f.report, exitCode := 1, files := w }

/-- The configuration file a request names, the subcommand's mention first. -/
def configPath (program sub : Given) : Option String :=
  (sub.text? "config").orElse fun _ => program.text? "config"

/-- The files a run may read beyond those its arguments name: the configured model dump and,
for `aec-filter`, the filter dumps, under the configuration the run would load. -/
def inputFiles (toml : Toml.Codec) (args : List String) (w : WorkDir) : List String :=
  match grammar.parse args with
  | .run program command sub =>
    let cfg := (ToolConfig.resolve toml w (configPath program sub)).toOption.getD {}
    let count (id : String) := ((sub.text? id).bind String.toNat?).getD 0
    let filters :=
      if command = aecFilterCommand.name then
        (Media.filterPairs (count "num_ref") (count "num_mics")).map fun (r, m) =>
          cfg.files.aecFilterPath ((sub.text? "base").getD "") r m
      else []
    cfg.files.nlmodelFile :: filters
  | _ => []

/-- The tool run with its arguments in a working directory, over the libraries it calls. -/
def run (libs : Libraries) (args : List String) (w : WorkDir) : ProgramRun :=
  match grammar.parse args with
  | .show text => { stdout := text, files := w }
  | .showAsError text => { stderr := text, exitCode := 2, files := w }
  | .refuse e => { stderr := e.render, exitCode := 2, files := w }
  | .run program command sub =>
    match ToolConfig.resolve libs.toml w (configPath program sub) with
    | .error e => failedRun "" (Failure.ofConfig e) w
    | .ok cfg =>
      let (result, progress) := ((commandRun libs cfg sub command).run).run { files := w }
      match result with
      | .ok () => { stdout := progress.stdout, files := progress.files }
      | .error f => failedRun progress.stdout f progress.files

end VoiceBench.Tool
