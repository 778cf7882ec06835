import BoundaryProxy.Compile.Basic
import BoundaryProxy.Profile.Document
import BoundaryProxy.Registry.Basic

/-!
# `BoundaryProxy.CommandLine.Failure` — why a command fails

A failure is told in one sentence, with what caused it below. The causes are listed from the nearest to the
most remote; they are numbered if there is more than one.
-/

namespace BoundaryProxy.CommandLine

open Host

/-- Why a command fails. -/
inductive Failure where
  | catalogUnreadable (path : String) (fault : IoFault)
  | catalogInvalid (path : String) (fault : Fault)
  | profileUnreadable (path : String) (fault : IoFault)
  | profileInvalid (path : String) (e : Profile.LoadError)
  | conflictingRegistries (conflict : RegistryConflict)
  | interfaceNotFound (name : String)
  | cannotCreate (path : String) (fault : IoFault)
  | cannotWrite (path : String) (fault : IoFault)
  | profileExists (path : String)
  | profileNotWritten (path : String) (fault : IoFault)
  | notCompiled (className : String) (failure : Compile.Failure)

namespace Failure

/-- The failure in one sentence. -/
def headline : Failure → String
  | catalogUnreadable path _ => s!"Failed to load type catalog {path}"
  | catalogInvalid path _ => s!"Failed to load type catalog {path}"
  | profileUnreadable path _ => s!"Failed to load host profile {path}"
  | profileInvalid path _ => s!"Failed to load host profile {path}"
  | conflictingRegistries _ => "Conflicting registry descriptors"
  | interfaceNotFound name => s!"Interface '{name}' not found in catalog"
  | cannotCreate path _ => s!"Failed to create {path}"
  | cannotWrite path _ => s!"Failed to write {path}"
  | profileExists path => s!"{path} already exists (use --force to overwrite)"
  | profileNotWritten path _ => s!"Failed to write {path}"
  | notCompiled className _ => s!"{className} did not compile"

/-- A fault of a document in words. -/
def faultText : Fault → String
  | .malformed => "the text does not describe a type catalog"
  | .badType e => e.message

/-- The causes of the failure. -/
def causes : Failure → List String
  | catalogUnreadable _ fault => [s!"I/O error: {fault.text}", fault.text]
  | catalogInvalid _ fault => [s!"Type catalog error: {faultText fault}", faultText fault]
  | profileUnreadable _ fault => [s!"Failed to read host profile: {fault.text}", fault.text]
  | profileInvalid _ (.invalid flaw) => [flaw.message]
  | profileInvalid _ .unreadable => ["Failed to parse host profile: the text does not describe a profile"]
  | conflictingRegistries conflict => [conflict.message]
  | interfaceNotFound _ => []
  | cannotCreate _ fault => [fault.text]
  | cannotWrite _ fault => [fault.text]
  | profileExists _ => []
  | profileNotWritten _ fault => [s!"Failed to read host profile: {fault.text}", fault.text]
  | notCompiled _ (.io fault) => [(Compile.Failure.io fault).message, fault.text]
  | notCompiled _ failure => [failure.message]

/-- A cause with a mark before its first line; the others stand below the text of the first. -/
def markedCause (mark : String) (cause : String) : String :=
  let indent := String.ofList (List.replicate mark.length ' ')
  mark ++ String.intercalate ("\n" ++ indent) ((cause.toList.splitOn '\n').map String.ofList)

/-- The causes as they are listed. -/
def causesText : List String → String
  | [] => ""
  | [cause] => "\n\nCaused by:\n" ++ markedCause "    " cause
  | causes =>
    "\n\nCaused by:\n" ++
      String.intercalate "\n" (causes.zipIdx.map fun (cause, i) => markedCause s!"    {i}: " cause)

/-- The failure with its causes. -/
def text (f : Failure) : String :=
  s!"Error: {f.headline}{causesText f.causes}\n"

end Failure

end BoundaryProxy.CommandLine
