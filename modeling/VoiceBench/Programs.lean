import VoiceBench.Control.Tools
import VoiceBench.Tool.Run
import VoiceBench.Toml.Write
import VoiceBench.Media.Wav
import VoiceBench.Spectrum.Transform

/-!
# The programs of the suite

Three programs share one executable: the host tool `fs_host`, the firmware tool `fs_dfu` and
the diagnostics tool `frontscope`, chosen by the first word of the command line, the
diagnostics tool when that word names none of them. A run reads the files of its working
directory; `filesToLoad` lists those a run may read, so that a caller can gather them first.
The programs take the libraries they call as a parameter; `Libraries.builtin` gathers the
built-in ones.
-/

namespace VoiceBench

/-- The built-in libraries. -/
def Libraries.builtin : Libraries := ⟨Toml.Codec.builtin, Media.WavCodec.builtin, Spectrum.Fft.builtin⟩

/-- The program a command line names, with the rest of the line. -/
def selectProgram (libs : Libraries) :
    List String → (List String → WorkDir → ProgramRun) × List String
  | "fs_host" :: rest => (Control.hostTool libs.toml, rest)
  | "fs_dfu" :: rest => (Control.dfuTool, rest)
  | "frontscope" :: rest => (Tool.run libs, rest)
  | args => (Tool.run libs, args)

/-- The files every program may read whatever its arguments. -/
def fixedFiles : List String :=
  [Config.userConfigPath, Control.FileDevice.bufferFile, Dfu.factoryImage, Dfu.upgradeImage,
    Control.defaultCommandList, Tool.defaultTableHeader]

/-- The files a command line may make its program read, given the files already known:
every argument, the fixed files and those the diagnostics tool derives from its
configuration. -/
def filesToLoad (libs : Libraries) (args : List String) (w : WorkDir) : List String :=
  let rest := (selectProgram libs args).2
  (args ++ fixedFiles ++ Tool.inputFiles libs.toml rest w).eraseDups

end VoiceBench
