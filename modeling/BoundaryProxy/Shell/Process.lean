import BoundaryProxy.Host.Disk
import BoundaryProxy.Host.ExitStatus
import BoundaryProxy.Shell.ByteText
import BoundaryProxy.Shell.Syntax

/-!
# `BoundaryProxy.Shell.Process` — what a running script knows, and what it shares with others

What belongs to one process — variables, functions, open descriptors, the working directory — is a `Process`.
A subshell gets a copy of it, and what the copy becomes is forgotten when the subshell ends. What all processes
share is a `World`: the disk, pipes, and the places in open files up to which has been read or written.

An `Action` may stop before its end; the state is kept as it was at that point.
-/

namespace BoundaryProxy.Shell

open Host

/-! ## Descriptors -/

/-- What an open descriptor leads to. -/
inductive Target where
  | file (p : Place)
  | pipe (n : Nat)
  | device (d : Device)
deriving Repr, DecidableEq

/-- Something that was opened. Descriptors that are copies of each other share it, with the place in the file
    at which it is read or written next. -/
structure Opened where
  target : Target
  offset : Nat := 0
  appends : Bool := false
  reads : Bool := false
  writes : Bool := false
deriving Repr, DecidableEq

/-- What all processes share. -/
structure World where
  disk : Disk
  opened : Array Opened := #[]
  /-- What has been written to each pipe and not been read yet. -/
  pipes : Array (List UInt8) := #[]
  /-- The number of the next process. -/
  nextProcess : Nat := 101
  /-- The signals that were sent to processes and have not arrived. -/
  signals : List (Nat × Nat) := []
  /-- The texts of here-documents by number. -/
  documents : List (Nat × Word) := []

/-! ## Processes -/

/-- A variable. One without a value is only marked for when it gets one. -/
structure Variable where
  value : Option String
  exported : Bool := false
  fixed : Bool := false
deriving Repr, DecidableEq

/-- What is done instead of going on with the next command. -/
inductive Skip where
  | none
  /-- Leave so many loops. -/
  | leave (loops : Nat)
  /-- Leave all but one of so many loops, and go on with the next round of that one. -/
  | again (loops : Nat)
  /-- Leave a function, or a script that was read in. -/
  | return
deriving Repr, DecidableEq

/-- What a function or a command puts back when it ends: variables as they were, and options. -/
structure Restore where
  saved : List (String × Option Variable) := []
  options : Option (List Char) := none

/-- What a process knows. Texts are byte texts. -/
structure Process where
  here : Place
  vars : List (String × Variable) := []
  functions : List (String × Command) := []
  name : String := "sh"
  args : List String := []
  /-- The options that are set, by letter; those without a letter have a capital of their own. -/
  options : List Char := []
  status : Nat := 0
  /-- The status of the last command in place of which its output stood. -/
  outputStatus : Nat := 0
  /-- The line of the command that is running, and the command of the shell that is. -/
  line : Nat := 0
  command : Option String := none
  /-- The line up to which the text that is running has been read, and the script from which the shell reads its
      commands. -/
  readLine : Nat := 1
  scriptLine : Nat := 1
  /-- The numbers of the process, of the shell that it is a part of, and of the processes that started it, the
      last one first. -/
  id : Nat := 100
  shellId : Nat := 100
  ancestors : List Nat := []
  /-- The last process that was not waited for. -/
  background : Option Nat := none
  /-- How the processes that were not waited for end, in the order in which they began. -/
  jobs : List (Nat × ExitStatus) := []
  /-- The commands that signals lead to; the signal zero is the end of the script. -/
  traps : List (Nat × String) := []
  /-- The signals for which a command has yet to be run. -/
  pending : List Nat := []
  descriptors : List (Nat × Nat) := []
  /-- Whether standard output has not taken something that the command that runs has written. -/
  outputFailed : Bool := false
  skip : Skip := .none
  loops : Nat := 0
  restores : List Restore := []
  /-- Where among the arguments, and where in the argument before, `getopts` goes on. -/
  nextArgument : Nat := 1
  nextLetter : Option Nat := none
  /-- The status to go on with after the command of a signal that runs. -/
  ending : Option Nat := none

/-- A process and all that it shares. -/
structure State where
  world : World
  process : Process

/-- Why an action does not come to its end. -/
inductive Stop where
  /-- The shell ends with the status that the process has. -/
  | exit
  /-- So it does, but a command of the shell may catch it. -/
  | failed
  /-- The process is ended by a signal. -/
  | killed (signal : Nat)
  /-- The process went on for too long. -/
  | exhausted
deriving Repr, DecidableEq

/-- An action of a process. -/
abbrev Action := EStateM Stop State

/-- The process. -/
def process : Action Process :=
  return (← get).process

/-- The world. -/
def world : Action World :=
  return (← get).world

/-- Change the process. -/
def onProcess (change : Process → Process) : Action Unit :=
  modify fun st => { st with process := change st.process }

/-- Change the world. -/
def onWorld (change : World → World) : Action Unit :=
  modify fun st => { st with world := change st.world }

/-- Set the status. -/
def setStatus (n : Nat) : Action Unit :=
  onProcess fun p => { p with status := n }

/-- Run an action of which the process keeps nothing. -/
def isolated {α : Type} (a : Action α) : Action α := do
  let before ← process
  let result ← a
  onProcess fun _ => before
  return result

/-- Run an action, and then another one however the first one ends. -/
def afterwards {α : Type} (a : Action α) (finish : Action Unit) : Action α := do
  let result ← tryCatch a fun stop => do
    finish
    throw stop
  finish
  return result

/-! ## Reading and writing -/

/-- What a descriptor leads to. -/
def openedAt (descriptor : Nat) : Action (Option (Nat × Opened)) := do
  let st ← get
  return do
    let n ← st.process.descriptors.lookup descriptor
    return (n, ← st.world.opened[n]?)

/-- Bytes with others written over them from a place on. -/
def overwrite (old : List UInt8) (offset : Nat) (bytes : List UInt8) : List UInt8 :=
  if offset == old.length then old ++ bytes
  else
    old.take offset ++ List.replicate (offset - old.length) 0 ++ bytes ++ old.drop (offset + bytes.length)

/-- Write bytes to something that was opened; `false` if it does not take them. -/
def writeOpened (n : Nat) (bytes : List UInt8) : Action Bool := do
  match (← world).opened[n]? with
  | none => return bytes.isEmpty
  | some o =>
    if !o.writes then return bytes.isEmpty
    match o.target with
    | .pipe m =>
      onWorld fun w => { w with pipes := w.pipes.modify m (· ++ bytes) }
      return true
    | .device .full => return bytes.isEmpty
    | .device _ => return true
    | .file p =>
      match (← world).disk.entry? p with
      | some (.file old executable) =>
        let offset := if o.appends then old.length else o.offset
        let entry := Entry.file (overwrite old offset bytes) executable
        onWorld fun w =>
          { w with
            disk := w.disk.put p entry
            opened := w.opened.modify n fun o => { o with offset := offset + bytes.length } }
        return true
      | _ => return true

/-- Write bytes to a descriptor; `false` if it does not take them. -/
def writeBytes (descriptor : Nat) (bytes : List UInt8) : Action Bool := do
  let taken ← match (← process).descriptors.lookup descriptor with
    | some n => writeOpened n bytes
    | none => pure bytes.isEmpty
  if !taken && descriptor == 1 then onProcess fun p => { p with outputFailed := true }
  return taken

/-- Write a byte text to a descriptor. -/
def write (descriptor : Nat) (s : List Char) : Action Bool :=
  writeBytes descriptor (toBytes s)

/-- What can be read from a descriptor; `none` if nothing can. -/
def available (descriptor : Nat) : Action (Option (List UInt8)) := do
  match ← openedAt descriptor with
  | none => return none
  | some (_, o) =>
    if !o.reads then return none
    match o.target with
    | .pipe m => return some ((← world).pipes[m]?.getD [])
    | .device _ => return some []
    | .file p =>
      match (← world).disk.entry? p with
      | some (.file content _) => return some (content.drop o.offset)
      | _ => return some []

/-- Go on reading a descriptor after so many bytes. -/
def consume (descriptor count : Nat) : Action Unit := do
  match ← openedAt descriptor with
  | none => return ()
  | some (n, o) =>
    match o.target with
    | .pipe m => onWorld fun w => { w with pipes := w.pipes.modify m (·.drop count) }
    | _ =>
      onWorld fun w =>
        { w with opened := w.opened.modify n fun o => { o with offset := o.offset + count } }

/-- Read all that is left. -/
def readRest (descriptor : Nat) : Action (Option (List UInt8)) := do
  match ← available descriptor with
  | none => return none
  | some bytes =>
    consume descriptor bytes.length
    return some bytes

/-- Open something under a descriptor. -/
def openAs (descriptor : Nat) (o : Opened) : Action Unit :=
  modify fun st =>
    { world := { st.world with opened := st.world.opened.push o }
      process :=
        { st.process with
          descriptors := (descriptor, st.world.opened.size) ::
            st.process.descriptors.filter (·.1 != descriptor) } }

/-- Make a pipe. -/
def newPipe : Action Nat := do
  let n := (← world).pipes.size
  onWorld fun w => { w with pipes := w.pipes.push [] }
  return n

/-- Write a line to standard error. -/
def complain (s : String) : Action Unit := do
  let _ ← write 2 (s.toList ++ ['\n'])

/-- Write a line to standard error that names the script, the line and the command of the shell. -/
def complainAt (s : String) : Action Unit := do
  let p ← process
  let command := match p.command with
    | some c => s!"{c}: "
    | none => ""
  complain s!"{p.name}: {p.line}: {command}{s}"

/-- Give up for a reason; the script ends unless a command of the shell catches that. -/
def fail {α : Type} (reason : String) : Action α := do
  complainAt reason
  setStatus 2
  throw .failed

/-! ## Options -/

/-- The options in the order in which they are listed: each with its name and its letter. -/
def optionTable : List (String × Char) :=
  [("errexit", 'e'), ("noglob", 'f'), ("ignoreeof", 'I'), ("interactive", 'i'), ("monitor", 'm'),
    ("noexec", 'n'), ("stdin", 's'), ("xtrace", 'x'), ("verbose", 'v'), ("vi", 'V'), ("emacs", 'E'),
    ("noclobber", 'C'), ("allexport", 'a'), ("notify", 'b'), ("nounset", 'u'), ("privileged", 'p'),
    ("nolog", 'L'), ("debug", 'D')]

/-- The options that have a letter. -/
def optionLetters : List Char :=
  (optionTable.map (·.2)).filter fun c => c != 'L' && c != 'D'

/-- Whether an option is set. -/
def hasOption (c : Char) : Action Bool :=
  return (← process).options.contains c

/-- Set an option or not. -/
def setOption (c : Char) (on : Bool) : Action Unit :=
  onProcess fun p =>
    let others := p.options.filter (· != c)
    { p with options := if on then c :: others else others }

/-! ## Variables -/

/-- The value of a variable. -/
def Process.valueOf? (p : Process) (name : String) : Option String :=
  (p.vars.lookup name).bind (·.value)

/-- The number of a text of decimal digits. -/
def decimal? (s : String) : Option Nat :=
  let ds := s.toList
  if ds.isEmpty || !ds.all Char.isDigit then none
  else some (ds.foldl (fun n c => 10 * n + (c.toNat - '0'.toNat)) 0)

/-- Put a variable in place of the one that has its name. -/
def Process.putVariable (p : Process) (name : String) (v : Option Variable) : Process :=
  let others := p.vars.filter (·.1 != name)
  match v with
  | some v => { p with vars := (name, v) :: others }
  | none => { p with vars := others }

/-- Give a variable a value and marks. -/
def setVariable (name : String) (value : Option String) (exported fixed : Bool := false) : Action Unit := do
  let p ← process
  let old := (p.vars.lookup name).getD ⟨none, false, false⟩
  if old.fixed then fail s!"{name}: is read only"
  let exported := old.exported || exported || p.options.contains 'a'
  onProcess (·.putVariable name (some ⟨value, exported, fixed⟩))
  if name == "OPTIND" then
    let n := ((value.bind decimal?).getD 1)
    onProcess fun p => { p with nextArgument := if n == 0 then 1 else n, nextLetter := none }

/-- Give a variable a value. -/
def assign (name value : String) : Action Unit :=
  setVariable name (some value)

/-- Give a variable a value, unless its name is none. -/
def assignChecked (name value : String) : Action Unit := do
  if isName name.toList then assign name value
  else
    let name := String.ofList (name.toList.takeWhile (· != '='))
    fail s!"{name}: bad variable name"

/-- Forget a variable. -/
def forget (name : String) : Action Unit := do
  match (← process).vars.lookup name with
  | none => return ()
  | some v =>
    if v.fixed then fail s!"{name}: is read only"
    onProcess (·.putVariable name none)

/-- Remember a variable for the end of the function or command that runs. -/
def keepVariable (name : String) : Action Unit :=
  onProcess fun p =>
    match p.restores with
    | [] => p
    | r :: rs => { p with restores := { r with saved := (name, p.vars.lookup name) :: r.saved } :: rs }

/-- Begin to remember variables. -/
def beginRestore : Action Unit :=
  onProcess fun p => { p with restores := {} :: p.restores }

/-- Put everything back that has been remembered. -/
def endRestore : Action Unit :=
  onProcess fun p =>
    match p.restores with
    | [] => p
    | r :: rs =>
      let p := r.saved.foldl (fun p (name, v) => p.putVariable name v) p
      { p with restores := rs, options := r.options.getD p.options }

/-- The variables that other programs get to know, by name. -/
def Process.exports (p : Process) : List (String × String) :=
  (p.vars.filterMap fun (name, v) => if v.exported then v.value.map (name, ·) else none).mergeSort
    fun a b => a.1 ≤ b.1

/-- The characters that separate fields. -/
def Process.separators (p : Process) : List Char :=
  match p.valueOf? "IFS" with
  | some s => s.toList
  | none => [' ', '\t', '\n']

/-- The directories in which programs are looked for. -/
def searchPath (path : String) : List String :=
  (path.toList.splitOn ':').map String.ofList

/-! ## Files -/

/-- What stands at a path. -/
def entryAt (path : String) : Action (Option Entry) := do
  let st ← get
  return st.world.disk.look? st.process.here (decode path)

/-- The fault in the words of programs. -/
def reasonOf (fault : IoFault) : String :=
  String.ofList (fault.text.toList.takeWhile (· != '(')).dropLast

end BoundaryProxy.Shell
