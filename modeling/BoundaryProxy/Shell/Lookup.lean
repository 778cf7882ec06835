import BoundaryProxy.Shell.Process
import BoundaryProxy.Shell.Token

/-!
# `BoundaryProxy.Shell.Lookup` — what the name of a command means

A name with a slash is a path. Any other one is a function, a command of the shell itself, or a program in one
of the directories of the search path.
-/

namespace BoundaryProxy.Shell

open Host

/-! ## Commands of the shell -/

/-- What is particular to a command of the shell. -/
structure BuiltinTraits where
  /-- A failure of it ends the script, and assignments before it last. -/
  special : Bool := false
  /-- Its arguments may be assignments. -/
  assigns : Bool := false
deriving Repr, DecidableEq

/-- The commands of the shell that are special. -/
def specialBuiltins : List String :=
  [".", ":", "break", "continue", "eval", "exec", "exit", "export", "local", "readonly", "return", "set",
    "shift", "trap", "unset"]

/-- The other commands of the shell. -/
def otherBuiltins : List String :=
  ["[", "cd", "chdir", "command", "echo", "false", "getopts", "kill", "printf", "pwd", "read", "test", "true",
    "type", "wait"]

/-- The command of the shell that has a name. -/
def builtinTraits? (name : String) : Option BuiltinTraits :=
  let assigns := ["export", "local", "readonly"].contains name
  if specialBuiltins.contains name then some ⟨true, assigns⟩
  else if otherBuiltins.contains name then some ⟨false, assigns⟩
  else none

/-! ## Programs -/

/-- Where programs are looked for if nothing else is said. -/
def standardPath : String :=
  "/usr/local/sbin:/usr/local/bin:/usr/sbin:/usr/bin:/sbin:/bin"

/-- The search path. -/
def Process.searchPath (p : Process) : String :=
  (p.valueOf? "PATH").getD standardPath

/-- The paths at which a program may stand. -/
def candidates (path name : String) : List String :=
  (searchPath path).map fun directory => Disk.join directory name

/-- What a name of a command means. -/
inductive Meaning where
  | program (path : String)
  | function (body : Command)
  | builtin (traits : BuiltinTraits)
  /-- Nothing. Something that is no file may stand where a program would. -/
  | nothing (isThere : Bool)

/-- What a name means. Functions may be left out of account. -/
def meaningOf (d : Disk) (p : Process) (functions : Bool) (path name : String) : Meaning :=
  if name.contains '/' then .program name
  else
    match if functions then p.functions.lookup name else none, builtinTraits? name with
    | some body, _ => .function body
    | none, some traits => .builtin traits
    | none, none =>
      let found := candidates path name
      let isFile (path : String) : Bool := match d.look? p.here (decode path) with
        | some (.file ..) => true
        | _ => false
      match found.find? isFile with
      | some path => .program path
      | none => .nothing (found.any fun path => d.exists? p.here (decode path))

/-- Why a name means nothing. -/
def absenceText (isThere : Bool) : String :=
  if isThere then "Permission denied" else "not found"

/-- Say what a name means, in a sentence or by what it leads to, and whether it means anything. -/
def describe (d : Disk) (p : Process) (verbose : Bool) (path name : String) : String × Bool :=
  if Token.keywords.contains name then
    (if verbose then s!"{name} is a shell keyword\n" else s!"{name}\n", true)
  else
    match meaningOf d p true path name with
    | .program found =>
      if name.contains '/' && !d.exists? p.here (decode name) then
        (if verbose then s!"{name}: not found\n" else "", false)
      else (if verbose then s!"{name} is {found}\n" else s!"{found}\n", true)
    | .function _ => (if verbose then s!"{name} is a shell function\n" else s!"{name}\n", true)
    | .builtin traits =>
      let kind := if traits.special then "special shell builtin" else "shell builtin"
      (if verbose then s!"{name} is a {kind}\n" else s!"{name}\n", true)
    | .nothing _ => (if verbose then s!"{name}: not found\n" else "", false)

end BoundaryProxy.Shell
