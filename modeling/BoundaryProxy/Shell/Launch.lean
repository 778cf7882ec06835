import BoundaryProxy.Host.Program
import BoundaryProxy.Shell.Execute

/-!
# `BoundaryProxy.Shell.Launch` — starting programs

A program is named by a path, or by a name that is looked for along the search path. It reads nothing, and what
it writes is kept.
-/

namespace BoundaryProxy.Shell

open Host

/-- How deep the functions that run commands may call each other. -/
def runFuel : Nat :=
  1000000

/-- What a program starts with: an empty input, and two pipes that it writes to. -/
def startState (disk : Disk) (here : Place) (environment : List (String × String)) : State :=
  let opened : Array Opened :=
    #[{ target := .device .null, reads := true }, { target := .pipe 0, writes := true },
      { target := .pipe 1, writes := true }]
  { world := { disk, opened, pipes := #[[], []] }
    process :=
      { here
        vars := environment.map fun (name, value) => (encode name, ⟨some (encode value), true, false⟩)
        descriptors := [(0, 0), (1, 1), (2, 2)]
        ancestors := [99] } }

/-- What is run for a program and its arguments, or what keeps that from being run. -/
def invocationFor (environment : List (String × String)) (disk : Disk) (here : Place) (program : String)
    (args : List String) : Except IoFault Invocation := do
  if (program :: args).any (·.contains '\x00') then .error .nulInArgument
  else if program.isEmpty then .error .notFound
  else if areTooLong ((program :: args).map (·.utf8ByteSize)) then .error .argumentsTooLong
  else if program.contains '/' then disk.invocation here program
  else if 255 < program.utf8ByteSize then .error .nameTooLong
  else
    let path := (environment.lookup "PATH").getD standardPath
    let path := if path.isEmpty then "." else path
    disk.firstInvocation here ((searchPath path).map (Disk.join · program)) .notFound

/-- Start a program. -/
def launch (environment : List (String × String)) : Launcher := fun disk here program args => do
  let i ← invocationFor environment disk here program args
  let argv := i.arguments id (program :: args)
  let finished (status : ExitStatus) (st : State) : ProgramRun :=
    ⟨status, (st.world.pipes[0]?).getD [], (st.world.pipes[1]?).getD [], st.world.disk⟩
  let body := conclude runFuel (become runFuel i.program (argv.map encode))
  match EStateM.run body (startState disk here environment) with
  | .ok status st => return finished status st
  | .error _ st => return finished (.exited 0) st

end BoundaryProxy.Shell
