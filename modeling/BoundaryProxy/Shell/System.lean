import BoundaryProxy.Host.Executable
import BoundaryProxy.Shell.Utility.Basic

/-!
# `BoundaryProxy.Shell.System` — the disk that every run begins with

The directories that are always there, and the programs in them.
-/

namespace BoundaryProxy.Shell

open Host

/-- The directories that are always there. -/
def systemDirectories : List String :=
  ["/bin", "/boot", "/dev", "/dev/fd", "/dev/pts", "/dev/shm", "/etc", "/home", "/lib", "/lib64", "/media", "/mnt",
    "/opt", "/proc", "/root", "/run", "/sbin", "/srv", "/sys", "/tmp", "/usr", "/usr/bin", "/usr/games",
    "/usr/include", "/usr/lib", "/usr/local", "/usr/local/bin", "/usr/local/etc", "/usr/local/games",
    "/usr/local/include", "/usr/local/lib", "/usr/local/sbin", "/usr/local/share", "/usr/local/src", "/usr/sbin",
    "/usr/share", "/usr/src", "/var", "/var/backups", "/var/cache", "/var/lib", "/var/local", "/var/lock",
    "/var/log", "/var/mail", "/var/opt", "/var/run", "/var/spool", "/var/tmp"]

/-- The directories that hold the programs. -/
def programDirectories : List Place :=
  [["usr", "bin"], ["bin"]]

/-- The disk that every run begins with. -/
def systemDisk : Disk :=
  let directories := systemDirectories.map fun path => (Disk.names path, Entry.directory)
  let programs := programDirectories.flatMap fun p =>
    programNames.map fun name => (p ++ [name], Entry.file (Executable.contentOf name) true)
  ⟨directories ++ programs⟩

end BoundaryProxy.Shell
