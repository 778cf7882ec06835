import BoundaryProxy.Shell.Builtin.Option

/-!
# `BoundaryProxy.Shell.Builtin.Control` — the commands that decide how a script goes on

Ending the script, leaving functions and loops, and sending, catching and awaiting signals and processes.
-/

namespace BoundaryProxy.Shell

open Host

/-! ## Leaving -/

/-- End the script. Without a number it ends with the status of the last command, which while the command of a
    signal runs is the one before the signal. -/
def runExit (args : List String) : Action Nat := do
  match args with
  | arg :: _ =>
    let n ← numberOf arg
    onProcess fun p => { p with status := n, ending := p.ending.map fun _ => n }
  | [] => onProcess fun p => { p with status := p.ending.getD p.status }
  throw .exit

/-- Leave a function or a script that was read in. -/
def runReturn (args : List String) : Action Nat := do
  let n ← match args with
    | arg :: _ => numberOf arg
    | [] => pure (← process).status
  onProcess fun p => { p with skip := .return }
  return n

/-- Leave loops, or go on with the next round of one. There may be fewer loops than are to be left. -/
def runLeave (goesOn : Bool) (args : List String) : Action Nat := do
  let n ← match args with
    | [] => pure 1
    | arg :: _ =>
      let n ← numberOf arg
      if n == 0 then refuseNumber arg else pure n
  onProcess fun p =>
    let loops := min n p.loops
    if loops == 0 then p else { p with skip := if goesOn then .again loops else .leave loops }
  return 0

/-! ## Signals -/

/-- The names of the signals with the lowest numbers; zero stands for the end of the script. -/
def lowSignals : List String :=
  ["EXIT", "HUP", "INT", "QUIT", "ILL", "TRAP", "ABRT", "BUS", "FPE", "KILL", "USR1", "SEGV", "USR2", "PIPE",
    "ALRM", "TERM", "16", "CHLD", "CONT", "STOP", "TSTP", "TTIN", "TTOU", "URG", "XCPU", "XFSZ", "VTALRM",
    "PROF", "WINCH", "IO", "PWR", "SYS", "32", "33", "RTMIN"]

/-- The names of all signals. -/
def signalWords : List String :=
  lowSignals ++ ((List.range 15).map fun n => s!"RTMIN+{n + 1}") ++
    ((List.range 14).map fun n => s!"RTMAX-{14 - n}") ++ ["RTMAX"]

/-- A text in capitals. -/
def capitals (s : String) : String :=
  String.ofList (s.toList.map Char.toUpper)

/-- The signal that a number, or a name of one from `least` on, stands for. -/
def signalOf? (least : Nat) (s : String) : Option Nat :=
  match decimal? s with
  | some n => if n < signalWords.length then some n else none
  | none => ((signalWords.drop least).findIdx? (· == capitals s)).map (· + least)

/-- Catch signals, or let them do what they do, or list those that are caught. -/
def runTrap (args : List String) : Action Nat := do
  let args ← operandsOf args
  match args with
  | [] =>
    let traps := (← process).traps.mergeSort fun a b => a.1 ≤ b.1
    let lines := traps.map fun (n, action) =>
      let word := (signalWords[n]?).getD ""
      s!"trap -- {quotedText action} {word}\n"
    let _ ← write 1 (String.join lines).toList
    return 0
  | first :: rest =>
    let isSignal := rest.isEmpty || (decimal? first).any (· < signalWords.length)
    let signals := if isSignal then first :: rest else rest
    let action := if isSignal || first == "-" then none else some first
    for s in signals do
      match signalOf? 0 s with
      | none =>
        complain s!"trap: {s}: bad trap"
        return 1
      | some n =>
        onProcess fun p =>
          let others := p.traps.filter (·.1 != n)
          { p with traps := match action with
              | some action => (n, action) :: others
              | none => others }
    return 0

/-- The signals that do nothing unless they are caught. -/
def idleSignals : List Nat :=
  [17, 18, 19, 20, 21, 22, 23, 28]

/-- Let a signal reach the process. Two signals cannot be caught. -/
def receive (signal : Nat) : Action Unit := do
  let p ← process
  match (if signal == 9 || signal == 19 then none else p.traps.lookup signal) with
  | some action =>
    if action.isEmpty then return ()
    else onProcess fun p => { p with pending := p.pending ++ [signal] }
  | none => if idleSignals.contains signal then return () else throw (.killed signal)

/-- Let the signals reach the process that others have sent to it. -/
def receiveAll : Action Unit := do
  let id := (← process).id
  let signals := ((← world).signals.filter (·.1 == id)).map (·.2)
  onWorld fun w => { w with signals := w.signals.filter (·.1 != id) }
  signals.forM receive

/-- Send a signal to a process; whether there is such a process. A process that is not waited for is held to be
    running still. -/
def send (signal id : Nat) : Action Bool := do
  let p ← process
  if id == p.id then
    if signal != 0 then receive signal
    return true
  else if p.ancestors.contains id then
    if signal != 0 then onWorld fun w => { w with signals := w.signals ++ [(id, signal)] }
    return true
  else if p.jobs.any (·.1 == id) then
    if signal != 0 && !idleSignals.contains signal then
      onProcess fun p =>
        { p with jobs := p.jobs.map fun (n, status) => (n, if n == id then .signalled signal false else status) }
    return true
  else return false

/-- How `kill` is used. -/
def killUsage : String :=
  "Usage: kill [-s sigspec | -signum | -sigspec] [pid | job]... or\nkill -l [exitstatus]"

/-- The process that an argument of `kill` names; none if it names a group of processes. -/
def targetProcess? (target : String) : Action (Option Nat) := do
  match target.toList with
  | '-' :: group =>
    let _ ← numberOf (String.ofList group)
    return none
  | _ => return some (← numberOf target)

/-- Send a signal to the processes that are named. No group of processes has a name here. -/
def sendToAll (signal : Nat) (targets : List String) : Action Nat := do
  let mut status := 0
  for target in targets do
    let sent ← match ← targetProcess? target with
      | some id => send signal id
      | none => pure false
    if !sent then
      complainAt "No such process\n"
      status := 1
  return status

/-- Send a signal. -/
def runKill (args : List String) : Action Nat := do
  match args with
  | [] => fail killUsage
  | first :: rest =>
    match first.toList with
    | '-' :: word =>
      match signalOf? 1 (String.ofList word) with
      | some signal => if rest.isEmpty then fail killUsage else sendToAll signal rest
      | none =>
        let (options, targets) ← builtinOptions [('s', true)] args
        let named := options.map (·.2)
        for name in named do
          if (signalOf? 1 name).isNone then fail s!"invalid signal number or name: {name}"
        if targets.isEmpty then fail killUsage
        else sendToAll ((named.getLast?.bind (signalOf? 1)).getD 15) targets
    | _ => sendToAll 15 args

/-! ## Processes that were not waited for -/

/-- A signal that ended a process, in words. -/
def signalText (signal : Nat) : String :=
  let texts := ["Hangup", "Interrupt", "Quit", "Illegal instruction", "Trace/breakpoint trap", "Aborted",
    "Bus error", "Floating point exception", "Killed", "User defined signal 1", "Segmentation fault",
    "User defined signal 2", "Broken pipe", "Alarm clock", "Terminated", "Stack fault", "Child exited",
    "Continued", "Stopped (signal)", "Stopped", "Stopped (tty input)", "Stopped (tty output)",
    "Urgent I/O condition", "CPU time limit exceeded", "File size limit exceeded", "Virtual timer expired",
    "Profiling timer expired", "Window changed", "I/O possible", "Power failure", "Bad system call"]
  (texts[signal - 1]?).getD s!"Real-time signal {signal - 34}"

/-- The number that stands for how a process ended. What ended it is told, unless that is an interrupt or a
    pipe that nobody reads. -/
def statusOf (status : ExitStatus) : Action Nat := do
  match status with
  | .exited n => return n
  | .signalled signal _ =>
    if signal != 2 && signal != 13 then complain (signalText signal)
    return 128 + signal

/-- Wait for processes. -/
def runWait (args : List String) : Action Nat := do
  let args ← operandsOf args
  let mut result := if args.isEmpty then 0 else 127
  for arg in args do
    let id ← numberOf arg
    match (← process).jobs.find? (·.1 == id) with
    | some (_, status) =>
      result ← statusOf status
      onProcess fun p => { p with jobs := p.jobs.map fun (n, s) => if n == id then (n, .exited result) else (n, s) }
    | none => result := 127
  return result

end BoundaryProxy.Shell
