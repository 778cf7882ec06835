import BoundaryProxy.CommandLine.Run
import BoundaryProxy.Shell.Launch
import BoundaryProxy.Shell.System

/-!
# `BoundaryProxy.Main` — the program

The files and directories that the arguments may name are read onto a disk, the command runs on it, and the
files that are new or changed are written back. Everything else is decided by `CommandLine.run`.
-/

open BoundaryProxy Host

namespace BoundaryProxy.Main

/-- The paths that arguments may name: whole arguments, and values that stand in one argument with their
    option. -/
def mentionedPaths (args : List String) : List String :=
  CommandLine.defaultProfilePath :: args.flatMap fun arg =>
    let afterSign := (arg.toList.dropWhile (· != '=')).drop 1
    [arg, String.ofList afterSign, String.ofList (arg.toList.drop 2)]

/-- The place a path leads to from a working directory. -/
def placeOf (here : Place) (path : String) : Place :=
  if Disk.isAbsolute path then Disk.names path else here ++ Disk.names path

/-- Read what stands at a path onto a disk. -/
def load (here : Place) (disk : Disk) (path : String) : IO Disk := do
  if path.isEmpty then return disk
  let found := (← IO.currentDir) / path
  if ← found.isDir then return disk.withDirectory (placeOf here path)
  else if ← found.pathExists then
    let content := (← IO.FS.readBinFile found).toList
    return disk.withFile (placeOf here path) content (content.take 2 == [35, 33])
  else return disk

/-- Write a file that is new or changed. -/
def store (before : Disk) (scratch p : Place) (entry : Entry) : IO Unit := do
  match entry with
  | .file content _ =>
    if before.entry? p != some entry && !scratch.isPrefixOf p then
      IO.FS.createDirAll (Compile.Command.absolutePath p.dropLast)
      IO.FS.writeBinFile (Compile.Command.absolutePath p) ⟨content.toArray⟩
  | .directory => return ()

/-- The variables of the environment that a command or a compiler may look at. -/
def environment : IO (List (String × String)) := do
  let mut found := []
  for name in ["HOME", "NO_COLOR", "PATH", "TERM", "TMPDIR"] do
    if let some value ← IO.getEnv name then found := found ++ [(name, value)]
  return found

end BoundaryProxy.Main

open BoundaryProxy.Main in
/-- Run the program. -/
def main (args : List String) : IO UInt32 := do
  let here := Disk.names (← IO.currentDir).toString
  let told ← environment
  let start := Shell.systemDisk.withDirectory here
  let disk ← (mentionedPaths args ++ (told.lookup "TMPDIR").toList).foldlM (load here) start
  let workshop : CommandLine.Workshop := ⟨Shell.launch told, ["tmp", "boundary-proxy"]⟩
  let outcome := CommandLine.run workshop told disk here args
  for (p, entry) in outcome.disk.entries do
    store disk (workshop.within told disk here).scratch p entry
  (← IO.getStdout).putStr outcome.stdout
  (← IO.getStderr).putStr outcome.stderr
  return UInt32.ofNat outcome.exitCode
