import BoundaryProxy.Host.Executable
import BoundaryProxy.Shell.Builtin.Basic

/-!
# `BoundaryProxy.Shell.Startup` — how programs and shells start

Which program runs when a path is executed, what a shell knows when it starts, and what its arguments tell it to
run.
-/

namespace BoundaryProxy.Shell

open Host

/-! ## Programs -/

/-- The program that runs when the first of several paths is executed that can be. A file that the system does
    not execute is taken for a script. -/
def invocationAmong (d : Disk) (here : Place) : List String → IoFault → Except IoFault Invocation
  | [], fault => .error fault
  | path :: paths, fault =>
    match d.invocation here (decode path) with
    | .ok i => .ok i
    | .error .badProgram => .ok ⟨"sh", some ["/bin/sh", decode path]⟩
    | .error .notFound => invocationAmong d here paths fault
    | .error .notDirectory => invocationAmong d here paths fault
    | .error fault => invocationAmong d here paths fault

/-- Why a program does not run, in the words of the shell, and the status that stands for that. -/
def absenceOf (fault : IoFault) : String × Nat :=
  match fault with
  | .notFound => ("not found", 127)
  | .notDirectory => ("not found", 127)
  | .nameTooLong => (reasonOf fault, 127)
  | .tooManyLevels => (reasonOf fault, 127)
  | _ => (reasonOf fault, 126)

/-- The variables that a shell starts with when other programs have told it some. -/
def startVariables (here : Place) (parent : Nat) (environment : List (String × String)) :
    List (String × Variable) :=
  let known := environment.filter fun (name, _) => isName name.toList
  let told := known.map fun (name, value) => (name, (⟨some value, true, false⟩ : Variable))
  let own : List (String × Variable) :=
    [("IFS", ⟨some " \t\n", false, false⟩), ("OPTIND", ⟨some "1", false, false⟩),
      ("PPID", ⟨some (toString parent), false, false⟩), ("PWD", ⟨some (placePath here), true, false⟩)]
  let standard : List (String × Variable) :=
    [("PATH", ⟨some standardPath, false, false⟩), ("PS1", ⟨some "# ", false, false⟩),
      ("PS2", ⟨some "> ", false, false⟩), ("PS4", ⟨some "+ ", false, false⟩)]
  own ++ (told.filter fun (name, _) => (own.lookup name).isNone) ++
    standard.filter fun (name, _) => (told.lookup name).isNone

/-- The signals that are to do nothing stay so in a new process; all others are let through. -/
def Process.ignored (p : Process) : List (Nat × String) :=
  p.traps.filter (·.2.isEmpty)

/-- Whether a signal or the end of the script leads to a command. -/
def Process.catches (p : Process) : Bool :=
  p.traps.any (!·.2.isEmpty)

/-- The process of a shell that takes the place of a process. -/
def Process.asShell (p : Process) (name : String) : Process :=
  { here := p.here
    vars := startVariables p.here (p.ancestors.head?.getD 1) p.exports
    name
    id := p.id
    shellId := p.id
    ancestors := p.ancestors
    traps := p.ignored
    descriptors := p.descriptors }

/-- The arguments of a shell: whether its script is the first operand, and its operands. Options are set. -/
def shellOperands : Nat → Bool → List String → Action (Bool × List String)
  | 0, isText, args => return (isText, args)
  | _ + 1, isText, [] => return (isText, [])
  | fuel + 1, isText, arg :: rest => do
    match arg.toList with
    | ['-'] => return (isText, rest)
    | ['-', '-'] => return (isText, rest)
    | sign :: letters =>
      if sign != '-' && sign != '+' then return (isText, arg :: rest)
      else
        let own := letters.filter fun c => c != 'c' && c != 'l'
        let taken ← setOptionLetters (sign == '-') rest own
        shellOperands fuel (isText || letters.contains 'c') (rest.drop taken)
    | [] => return (isText, arg :: rest)

/-- What a shell runs. -/
inductive Source where
  | text (s : String)
  /-- A script, by which the shell is called from then on. -/
  | file (path : String)
  | input
deriving Repr, DecidableEq

/-- Read the arguments of a shell and give it those of its script. -/
def readShellArguments (args : List String) : Action Source := do
  let (isText, operands) ← shellOperands (args.length + 1) false args
  let begin (name : Option String) (args : List String) : Action Unit := do
    if let some name := name then onProcess fun p => { p with name }
    setArguments args
  match operands with
  | [] =>
    if isText then fail "-c requires an argument"
    setOption 's' true
    return .input
  | first :: rest =>
    if isText then
      begin rest.head? (rest.drop 1)
      return .text first
    else if ← hasOption 's' then
      begin none operands
      return .input
    else
      begin none rest
      return .file first

/-! ## Scripts -/

/-- The bytes of a script. -/
def scriptAt (path : String) : Action (Except IoFault (List UInt8)) := do
  let st ← get
  match st.world.disk.read st.process.here (decode path) with
  | .error .isDirectory => return .ok []
  | result => return result

/-- The path of a script that is to be read in. -/
def dotPath (name : String) : Action String := do
  if name.contains '/' then return name
  else
    let st ← get
    let found := (candidates st.process.searchPath name).find? fun path =>
      match st.world.disk.look? st.process.here (decode path) with
      | some (.file ..) => true
      | _ => false
    match found with
    | some path => return path
    | none => fail s!"{name}: not found"

end BoundaryProxy.Shell
