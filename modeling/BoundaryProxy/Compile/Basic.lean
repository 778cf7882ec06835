import BoundaryProxy.Check.Basic
import BoundaryProxy.Diagnostic
import BoundaryProxy.Host.Disk
import BoundaryProxy.Source.Render

/-!
# `BoundaryProxy.Compile.Basic` — from a class to a compiled artifact

A backend builds the source of a class. It either cannot do its work at all, or it answers with the errors
it found and, where it makes one, an image. One error is enough for the compilation to fail, and then there
is no artifact, whatever image the backend made.
-/

namespace BoundaryProxy.Compile

open Host

/-- What a backend builds. -/
structure Request where
  unit : ProxyUnit
  source : String
  references : List String

/-- What a backend answers: a line for each error, and the compiled image if it makes one. -/
structure BuildOutput where
  errors : List String := []
  image : Option (List UInt8) := none
deriving Repr, DecidableEq

/-- Why there is no artifact. -/
inductive Failure where
  /-- The backend found errors. -/
  | compilation (lines : List String)
  /-- The backend could not do its work. -/
  | backend (name reason : String)
  /-- The source could not be handed to the backend. -/
  | io (fault : IoFault)
deriving Repr, DecidableEq

namespace Failure

/-- The failure in words. -/
def message : Failure → String
  | compilation lines => s!"Service compilation failed with {lines.length} errors"
  | backend name reason => s!"Compiler backend '{name}' failed: {reason}"
  | io fault => s!"I/O error: {fault.text}"

/-- The errors that the backend found. -/
def lines : Failure → List String
  | compilation lines => lines
  | _ => []

end Failure

/-- Something that builds classes. It works on a disk, which it may leave changed. -/
structure Backend where
  name : String
  build : Request → Disk → Except Failure BuildOutput × Disk

/-- A backend that leaves the disk alone. -/
def Backend.pure (name : String) (build : Request → Except Failure BuildOutput) : Backend :=
  ⟨name, fun request disk => (build request, disk)⟩

/-- The backend that checks a class and makes no image. -/
def checkBackend : Backend :=
  .pure "check" fun request => .ok ⟨request.unit.checkLines, none⟩

/-- A class that compiled without errors. -/
structure Artifact where
  assemblyName : String
  source : String
  references : List String
  image : Option (List UInt8)
deriving Repr, DecidableEq

/-- What a compilation reports. -/
inductive Notice where
  | compilerError (line : String)
  | compiled (className : String)
deriving Repr, DecidableEq

/-- The notice as a diagnostic. -/
def Notice.diagnostic : Notice → Diagnostic
  | compilerError line => ⟨.error, some .compilerOutput, line⟩
  | compiled className => ⟨.note, none, s!"Service {className} compiled successfully"⟩

/-- What a compilation comes to: its result, what it reports, and the disk after it. -/
structure Compilation where
  result : Except Failure Artifact
  notices : List Notice
  disk : Disk

end BoundaryProxy.Compile

namespace BoundaryProxy

open Compile Host

/-- Compile a class against references. Every error is reported before the compilation fails. -/
def compile (backend : Backend) (unit : ProxyUnit) (references : List String) (disk : Disk) : Compilation :=
  let source := Source.render unit
  match backend.build ⟨unit, source, references⟩ disk with
  | (.error failure, disk) => ⟨.error failure, [], disk⟩
  | (.ok output, disk) =>
    if output.errors.isEmpty then
      ⟨.ok ⟨unit.className, source, references, output.image⟩, [.compiled unit.className], disk⟩
    else ⟨.error (.compilation output.errors), output.errors.map .compilerError, disk⟩

end BoundaryProxy
