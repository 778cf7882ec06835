import BoundaryProxy.Shell.Builtin.Control
import BoundaryProxy.Shell.Builtin.Variable
import BoundaryProxy.Shell.Condition
import BoundaryProxy.Shell.Format
import BoundaryProxy.Shell.Lookup

/-!
# `BoundaryProxy.Shell.Builtin.Basic` — the commands of the shell itself

The commands that print, test, and change the working directory or the names of commands, and the table of all
commands that need no other command to be run.
-/

namespace BoundaryProxy.Shell

open Host

/-! ## Printing -/

/-- Write a text to standard output, and end a command with success. -/
def printed (s : String) : Action Nat := do
  let _ ← write 1 s.toList
  return 0

/-- Print arguments. -/
def runEcho (args : List String) : Action Nat := do
  let _ ← write 1 (echoText args)
  return 0

/-- Print a format and its arguments. An argument that should be a number and is none is reported. -/
def runFormat (args : List String) : Action Nat := do
  match ← operandsOf args with
  | [] => fail "usage: printf format [arg ...]"
  | format :: args =>
    let (p, reason) := printfRun format args
    p.warnings.forM complainAt
    if let some reason := reason then complainAt reason
    let _ ← write 1 p.text.toList
    if reason.isSome then
      setStatus 2
      throw .failed
    return if p.warnings.isEmpty then 0 else 1

/-- Evaluate a condition. -/
def runTest (args : List String) : Action Nat := do
  let st ← get
  match holds st.world.disk st.process.here (args.length + 1) false args with
  | .ok b => return if b then 0 else 1
  | .error flaw => fail flaw.text

/-- Evaluate a condition in brackets. -/
def runBracket (args : List String) : Action Nat := do
  match args.getLast? with
  | some last => if last.toList.head? == some ']' then runTest args.dropLast else fail "missing ]"
  | none => fail "missing ]"

/-! ## The working directory -/

/-- A place as a path. -/
def placePath (p : Place) : String :=
  encode ("/" ++ String.intercalate "/" p)

/-- The place that a path means by its names alone. -/
def nominalPlace (here : Place) (path : String) : Place :=
  let path := decode path
  (Disk.names path).foldl (fun p name =>
    if name == "." then p else if name == ".." then p.dropLast else p ++ [name])
    (if Disk.isAbsolute path then [] else here)

/-- Go to a directory; whether there is one. -/
def goTo (path : String) : Action Bool := do
  let st ← get
  let here := st.process.here
  let target := nominalPlace here path
  match st.world.disk.place [] (decode (placePath target)) with
  | .ok p =>
    if !st.world.disk.isDirectory p then return false
    setVariable "OLDPWD" (some (placePath here)) true
    setVariable "PWD" (some (placePath p)) true
    onProcess fun q => { q with here := p }
    return true
  | .error _ => return false

/-- Change the working directory. -/
def runChangeDirectory (args : List String) : Action Nat := do
  let (_, operands) ← builtinOptions [('L', false), ('P', false)] args
  let p ← process
  let (target, isOld) := match operands.head? with
    | none => ((p.valueOf? "HOME").getD "", false)
    | some "-" => ((p.valueOf? "OLDPWD").getD "", true)
    | some path => (path, false)
  let target := if target.isEmpty then "." else target
  if ← goTo target then
    if isOld then printed (placePath (← process).here ++ "\n") else return 0
  else fail s!"can't cd to {target}"

/-- Print the working directory. -/
def runWorkingDirectory (args : List String) : Action Nat := do
  let _ ← builtinOptions [('L', false), ('P', false)] args
  printed (placePath (← process).here ++ "\n")

/-! ## Names of commands -/

/-- Say what names mean. -/
def runType (args : List String) : Action Nat := do
  let mut status := 0
  for name in args do
    let st ← get
    let (text, isKnown) := describe st.world.disk st.process true st.process.searchPath name
    let _ ← printed text
    if !isKnown then status := 127
  return status

/-- Say what a name of a command means. -/
def runCommand (args : List String) : Action Nat := do
  let (options, operands) ← builtinOptions [('p', false), ('v', false), ('V', false)] args
  let has (c : Char) : Bool := options.any (·.1 == c)
  match operands with
  | [] => return 0
  | name :: _ =>
    if !has 'v' && !has 'V' then return 0
    let st ← get
    let path := if has 'p' then standardPath else st.process.searchPath
    let (text, isKnown) := describe st.world.disk st.process (has 'V') path name
    let _ ← printed text
    return if isKnown then 0 else 127

/-! ## The table -/

/-- The command of the shell that has a name, if it runs no other command. -/
def builtin? : String → Option (List String → Action Nat)
  | ":" => some fun _ => return 0
  | "[" => some runBracket
  | "break" => some (runLeave false)
  | "cd" => some runChangeDirectory
  | "chdir" => some runChangeDirectory
  | "command" => some runCommand
  | "continue" => some (runLeave true)
  | "echo" => some runEcho
  | "exit" => some runExit
  | "export" => some (runMark false)
  | "false" => some fun _ => return 1
  | "getopts" => some runGetOptions
  | "kill" => some runKill
  | "local" => some runLocal
  | "printf" => some runFormat
  | "pwd" => some runWorkingDirectory
  | "read" => some runRead
  | "readonly" => some (runMark true)
  | "return" => some runReturn
  | "set" => some runSet
  | "shift" => some runShift
  | "test" => some runTest
  | "trap" => some runTrap
  | "true" => some fun _ => return 0
  | "type" => some runType
  | "unset" => some runUnset
  | "wait" => some runWait
  | _ => none

end BoundaryProxy.Shell
