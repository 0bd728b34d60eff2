import VoiceBench.Programs

/-!
# The executable

Runs the program the command line names in the current directory, with the built-in
libraries: gathers the files the run may read, runs it, writes back the files it created or
changed, prints its output and exits with its status.
-/

open VoiceBench

/-- The files that can be read among some paths. -/
def loadFiles (paths : List String) : IO WorkDir := do
  let mut entries : List (String × List UInt8) := []
  for p in paths do
    try
      let bytes ← IO.FS.readBinFile p
      entries := entries ++ [(p, bytes.toList)]
    catch _ => pure ()
  let w := WorkDir.ofFiles entries
  pure (paths.foldl (fun w p =>
    match WorkDir.parent <$> WorkDir.normalize p with
    | some dir => (w.createDirAll dir).toOption.getD w
    | none => w) w)

/-- Writes the directories and files a run created or changed. -/
def storeFiles (before after : WorkDir) : IO Unit := do
  for d in after.dirs do
    if !before.dirs.contains d then IO.FS.createDirAll d
  for (path, bytes) in after.files do
    if before.lookup path != some bytes then
      let dir := WorkDir.parent path
      if !dir.isEmpty then IO.FS.createDirAll dir
      IO.FS.writeBinFile path (ByteArray.mk bytes.toArray)

/-- Runs a program of the suite. -/
def main (args : List String) : IO UInt32 := do
  let (program, rest) := selectProgram Libraries.builtin args
  let known ← loadFiles (args ++ fixedFiles)
  let w ← loadFiles (filesToLoad Libraries.builtin args known)
  let result := program rest w
  storeFiles w result.files
  IO.print result.stdout
  IO.eprint result.stderr
  pure (UInt32.ofNat result.exitCode)
