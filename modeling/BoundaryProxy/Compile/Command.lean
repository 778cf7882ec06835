import BoundaryProxy.Compile.Basic
import BoundaryProxy.Host.Program
import BoundaryProxy.Text.Blank
import BoundaryProxy.Text.Fragment
import BoundaryProxy.Text.Utf8

/-!
# `BoundaryProxy.Compile.Command` — compiling with an external program

A command names a program and a template of its arguments. In an argument `{source}` stands for the path of
the source file and `{out}` for the path at which the image is expected; the argument `{references}` stands
for one argument per reference.

The program runs in a scratch directory of its own. What came of it is an `Outcome`; `Command.judge` alone
says what an outcome means, so everything a backend decides can be known without running anything.
-/

namespace BoundaryProxy.Compile

open Host Text

/-- What came of running a compiler. -/
inductive Outcome where
  /-- The source file could not be written. -/
  | noSource (fault : IoFault)
  /-- The program could not be started. -/
  | notStarted (fault : IoFault)
  /-- The program ran: how it ended, what it printed, and the image at the expected path. -/
  | finished (status : ExitStatus) (stdout stderr : List UInt8) (image : Except IoFault (List UInt8))

/-- An external compiler and the template of its arguments. -/
structure Command where
  program : String
  args : List String :=
    ["-nologo", "-target:library", "-out:\x7bout\x7d", "\x7breferences\x7d", "\x7bsource\x7d"]
  /-- The argument that stands for one reference. -/
  referenceArg : String := "-r:\x7breference\x7d"
deriving Repr

namespace Command

/-- The compiler that is meant if none is named. -/
def csc : Command :=
  { program := "csc" }

/-- The arguments that one argument of a template stands for. -/
def expand (c : Command) (source out : String) (references : List String) (arg : String) : List String :=
  if arg == "\x7breferences\x7d" then
    references.map fun reference => replace "\x7breference\x7d" reference c.referenceArg
  else [replace "\x7bout\x7d" out (replace "\x7bsource\x7d" source arg)]

/-- The arguments the program is started with. -/
def arguments (c : Command) (source out : String) (references : List String) : List String :=
  c.args.flatMap (c.expand source out references)

/-! ## What an outcome means -/

/-- Whether a line of output reports an error. -/
def isErrorLine (line : String) : Bool :=
  hasFragment ": error " line || beginsWith "error" line

/-- The lines a program printed, those of standard output first. -/
def outputLines (stdout stderr : List UInt8) : List String :=
  trimmedLines (ofUtf8Lossy stdout) ++ trimmedLines (ofUtf8Lossy stderr)

/-- The errors of a program that ran: the lines that report errors; if there is none and the program failed,
    all its lines; if there is none of those either, how it ended. -/
def errors (c : Command) (status : ExitStatus) (lines : List String) : List String :=
  let reported := lines.filter isErrorLine
  if status.isSuccess || !reported.isEmpty then reported
  else if !lines.isEmpty then lines
  else [s!"{c.program} exited with {status.text}"]

/-- What an outcome means, where `out` is the path at which the image was expected. -/
def judge (c : Command) (out : String) : Outcome → Except Failure BuildOutput
  | .noSource fault => .error (.io fault)
  | .notStarted fault => .error (.backend c.program s!"failed to start: {fault.text}")
  | .finished status stdout stderr image =>
    let errors := c.errors status (outputLines stdout stderr)
    if !errors.isEmpty then .ok ⟨errors, none⟩
    else
      match image with
      | .ok bytes => .ok ⟨[], some bytes⟩
      | .error fault => .error (.backend c.program s!"no image at {out}: {fault.text}")

/-! ## Running -/

/-- A place as an absolute path. -/
def absolutePath (p : Place) : String :=
  "/" ++ String.intercalate "/" p

/-- The path of a class's file with an extension in a scratch directory. -/
def scratchFile (scratch : Place) (className extension : String) : String :=
  Disk.join (absolutePath scratch) s!"{className}.{extension}"

/-- Run the compiler on a request in a scratch directory that it has for itself: what came of it, and the disk
    that it leaves behind. -/
def run (c : Command) (launch : Launcher) (scratch : Place) (request : Request) (disk : Disk) : Outcome × Disk :=
  let source := scratchFile scratch request.unit.className "cs"
  let out := scratchFile scratch request.unit.className "dll"
  match (disk.withDirectory scratch).write scratch source (toUtf8 request.source) with
  | .error fault => (.noSource fault, disk)
  | .ok ready =>
    match launch ready scratch c.program (c.arguments source out request.references) with
    | .error fault => (.notStarted fault, ready)
    | .ok run => (.finished run.status run.stdout run.stderr (run.disk.read scratch out), run.disk)

/-- The backend that runs the compiler. The scratch directory does not outlast it. -/
def backend (c : Command) (launch : Launcher) (scratch : Place) : Backend :=
  ⟨c.program, fun request disk =>
    let (outcome, disk) := c.run launch scratch request disk
    (c.judge (scratchFile scratch request.unit.className "dll") outcome, disk.removeAll scratch)⟩

end Command

end BoundaryProxy.Compile
