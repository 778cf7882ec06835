import BoundaryProxy.Shell.Process
import BoundaryProxy.Shell.Utility.Quote

/-!
# `BoundaryProxy.Shell.Utility.Option` — the options of programs, and what they complain of

Options are letters. They may stand anywhere among the arguments of most programs, up to two dashes alone.
-/

namespace BoundaryProxy.Shell

open Host

/-- The options of a program. -/
structure UtilitySpec where
  letters : String := ""
  /-- Whether options may stand behind operands. -/
  permutes : Bool := true
  /-- The status after an option that there is not. -/
  failure : Nat := 1

/-- The arguments of a program. -/
structure UtilityArgs where
  options : List Char := []
  operands : List String := []

/-- Read the arguments of a program; or say what is wrong with them. -/
def UtilitySpec.read (spec : UtilitySpec) : List String → Except String UtilityArgs
  | [] => .ok {}
  | arg :: rest =>
    match arg.toList with
    | ['-', '-'] => .ok { operands := rest }
    | '-' :: '-' :: _ => .error s!"unrecognized option '{arg}'"
    | '-' :: c :: letters =>
      match (c :: letters).find? (!spec.letters.contains ·) with
      | some bad => .error s!"invalid option -- '{bad}'"
      | none => (spec.read rest).map fun a => { a with options := c :: letters ++ a.options }
    | _ =>
      if spec.permutes then (spec.read rest).map fun a => { a with operands := arg :: a.operands }
      else .ok { operands := arg :: rest }

/-- Complain under the name by which the program was called. -/
def report (what : String) : Action Unit := do
  complain s!"{(← process).name}: {what}"

/-- Complain of how a program is used. -/
def misuse (what : String) (status : Nat := 1) : Action Nat := do
  report what
  complain s!"Try '{(← process).name} --help' for more information."
  return status

/-- Run a program on its arguments. -/
def UtilitySpec.run (spec : UtilitySpec) (args : List String) (body : UtilityArgs → Action Nat) : Action Nat :=
  match spec.read args with
  | .ok a => body a
  | .error flaw => misuse flaw spec.failure

/-- Write to standard output; whether that was possible. -/
def emit (bytes : List UInt8) : Action Bool := do
  if ← writeBytes 1 bytes then return true
  let reason := match ← openedAt 1 with
    | some (_, o) => if o.writes then "No space left on device" else "Bad file descriptor"
    | none => "Bad file descriptor"
  report s!"write error: {reason}"
  return false

/-- Write a text to standard output; the status is zero if that was possible. -/
def emitText (s : List Char) : Action Nat := do
  return if ← emit (toBytes s) then 0 else 1

end BoundaryProxy.Shell
