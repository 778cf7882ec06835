import BoundaryProxy.Host.Disk

/-!
# `BoundaryProxy.Host.Executable` — what runs when a file is executed

A file that is executed is a program of the system, or a script whose first line names the program that runs
it. That program may be a script again, up to a few levels. A file may also be neither; then the system does
not execute it.
-/

namespace BoundaryProxy.Host

/-- What a file is to one who executes it. -/
inductive Executable where
  /-- A program of the system, by its name. -/
  | program (name : String)
  /-- A script for an interpreter, which may get one argument before the path of the script. -/
  | script (interpreter : String) (option : Option String)
  | other
deriving Repr, DecidableEq

namespace Executable

/-- The bytes that a program of the system begins with. -/
def programMark : List UInt8 :=
  [127, 69, 76, 70]

/-- The content of a program of the system. -/
def contentOf (name : String) : List UInt8 :=
  programMark ++ Text.toUtf8 name

/-- How much of the first line of a script counts. -/
def lineLimit : Nat := 256

/-- Whether a byte separates the words of the first line. -/
def isBlankByte (b : UInt8) : Bool :=
  b == 32 || b == 9

/-- What the first line of a script says, without the two characters that begin it. A name that does not end
    within the limit counts for nothing. -/
def ofFirstLine (bytes : List UInt8) : Executable :=
  let seen := bytes.take (lineLimit - 2)
  let line := (seen.takeWhile (· != 10)).dropWhile isBlankByte
  let isWhole := line.length < seen.length || bytes.length < lineLimit - 2
  let name := line.takeWhile fun b => !isBlankByte b && b != 0
  let after := line.drop name.length
  if name.isEmpty || (after.isEmpty && !isWhole) then other
  else
    let text (bytes : List UInt8) : String := String.ofList (Text.ofUtf8Lossy bytes)
    let option := ((after.takeWhile (· != 0)).dropWhile isBlankByte).reverse.dropWhile isBlankByte
    script (text name) (if option.isEmpty then none else some (text option.reverse))

/-- What a content is. -/
def ofContent (content : List UInt8) : Executable :=
  if programMark.isPrefixOf content && content.length > programMark.length then
    program (String.ofList (Text.ofUtf8Lossy (content.drop programMark.length)))
  else if [35, 33].isPrefixOf content then ofFirstLine (content.drop 2)
  else other

end Executable

/-- A program of the system that is run in place of a file. -/
structure Invocation where
  program : String
  /-- What the program is called with in place of its name, if a script is run. -/
  leading : Option (List String) := none
deriving Repr, DecidableEq

/-- The arguments that the program gets for those that were given, the first of which is a name. -/
def Invocation.arguments (i : Invocation) (encode : String → String) (given : List String) : List String :=
  match i.leading with
  | none => given
  | some leading => leading.map encode ++ given.drop 1

/-- The size of the longest argument. -/
def argumentLimit : Nat := 131071

/-- The size of all arguments together that is too much. -/
def totalLimit : Nat := 2097152

/-- Whether arguments of such sizes are too long. -/
def areTooLong (sizes : List Nat) : Bool :=
  sizes.any (argumentLimit < ·) || totalLimit ≤ (sizes.map (· + 9)).foldr (· + ·) 0

namespace Disk

/-- What the file is that a path leads to, if it may be executed. -/
def executable (d : Disk) (here : Place) (path : String) : Except IoFault Executable := do
  let p ← d.place here path
  if (Device.at? p).isSome then .error .denied
  else
    match d.entry? p with
    | none => .error .notFound
    | some .directory => .error .denied
    | some (.file _ false) => .error .denied
    | some (.file content true) => .ok (Executable.ofContent content)

/-- How many interpreters of interpreters there may be, and one more. -/
def invocationLevels : Nat := 6

/-- What is run when the file at a path is executed. A script is replaced by its interpreter, which gets the
    path of the script. -/
def invocationFrom (d : Disk) (here : Place) : Nat → String → Option (List String) → Except IoFault Invocation
  | 0, _, _ => .error .tooManyLevels
  | fuel + 1, path, leading => do
    match ← d.executable here path with
    | .program name => .ok ⟨name, leading⟩
    | .script interpreter option =>
      let leading := interpreter :: option.toList ++ path :: (leading.getD []).drop 1
      d.invocationFrom here fuel interpreter (some leading)
    | .other => .error .badProgram

/-- What is run when the file at a path is executed. -/
def invocation (d : Disk) (here : Place) (path : String) : Except IoFault Invocation :=
  d.invocationFrom here invocationLevels path none

/-- What is run when the first of several paths is executed that can be. A path that leads to nothing is passed
    over; if there is no other one, what kept a file from being executed is remembered. -/
def firstInvocation (d : Disk) (here : Place) : List String → IoFault → Except IoFault Invocation
  | [], fault => .error fault
  | path :: paths, fault =>
    match d.invocation here path with
    | .error .notFound => d.firstInvocation here paths fault
    | .error .notDirectory => d.firstInvocation here paths fault
    | .error .denied => d.firstInvocation here paths .denied
    | result => result

end Disk

end BoundaryProxy.Host
