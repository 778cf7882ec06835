import BoundaryProxy.Host.Disk
import BoundaryProxy.Host.ExitStatus

/-!
# `BoundaryProxy.Host.Program` — running other programs

What a program does is a value: how it ended, what it printed and the disk it left behind. A `Launcher` is
anything that can start programs.
-/

namespace BoundaryProxy.Host

/-- A program that ran. -/
structure ProgramRun where
  status : ExitStatus
  stdout : List UInt8
  stderr : List UInt8
  disk : Disk

/-- Starts a program with arguments in a working directory; the fault is what kept it from starting. -/
abbrev Launcher :=
  (disk : Disk) → (here : Place) → (program : String) → (args : List String) → Except IoFault ProgramRun

end BoundaryProxy.Host
