import BoundaryProxy.Shell.Call
import BoundaryProxy.Shell.Startup
import BoundaryProxy.Shell.Utility.Basic

/-!
# `BoundaryProxy.Shell.Execute` — running commands

Commands are run one after the other. A process that another one waits for, or that is one of a pipeline, runs
to its end before anything else does; what it has written to a pipe waits there to be read.

The fuel of the functions below bounds how deep they call each other. A round of a loop counts as a level.
-/

namespace BoundaryProxy.Shell

open Host

/-! ## Commands of a script -/

/-- Read the next command of a script. -/
def readNext (c : Cursor) : Action (Option Command × Cursor) := do
  let st ← get
  let start := { c with documents := [], count := st.world.documents.length }
  match Reader.complete.run start with
  | .ok command c =>
    onWorld fun w => { w with documents := c.documents ++ w.documents }
    return (command, c)
  | .error flaw _ =>
    onProcess fun p => { p with line := flaw.line }
    fail s!"Syntax error: {flaw.reason}"

/-- What the end of a round means for a loop. -/
inductive Round where
  | next
  /-- The round ended before its end. -/
  | again
  | leave
deriving DecidableEq

/-- End a round of a loop. -/
def endRound : Action Round := do
  let skip (s : Skip) : Action Unit := onProcess fun p => { p with skip := s }
  match (← process).skip with
  | .none => return .next
  | .return => return .leave
  | .leave loops =>
    skip (if loops ≤ 1 then .none else .leave (loops - 1))
    return .leave
  | .again loops =>
    skip (if loops ≤ 1 then .none else .again (loops - 1))
    return if loops ≤ 1 then .again else .leave

/-- A cursor at the start of a script. -/
def Cursor.ofBytes (bytes : List UInt8) : Cursor :=
  { text := Shell.ofBytes (bytes.filter (· != 0)) }

/-! ## How commands are run -/

/-- How a command is run. -/
structure Manner where
  /-- Nothing is left to do for its process when it has ended. -/
  last : Bool := false
  /-- It is looked at how it ends, so that a failure does not end the script. -/
  tested : Bool := false

/-- End the process as a program ended that has taken its place. -/
def endAs (status : ExitStatus) : Action Unit := do
  match status with
  | .exited n =>
    setStatus n
    throw .exit
  | .signalled signal _ => throw (.killed signal)

/-- Connect standard input and output of a process with pipes. -/
def connect (input output : Option Nat) : Action Unit := do
  if let some n := input then openAs 0 { target := .pipe n, reads := true }
  if let some n := output then openAs 1 { target := .pipe n, writes := true }

/-- A process that has been started by another one. -/
def Process.child (p : Process) (id : Nat) : Process :=
  { p with
    id
    ancestors := p.id :: p.ancestors
    traps := p.ignored
    jobs := []
    pending := []
    readLine := p.scriptLine }

/-- Go on as at the end of a script: no function runs any more, and no loop. -/
def Process.unwound (p : Process) (ending : Nat) : Process :=
  { p with traps := p.traps.filter (·.1 != 0), skip := .none, ending := some ending }

/-- The variables of the environment that the arguments of `env` describe, and the command behind them. -/
def environmentOf : List (String × String) → List String →
    Except String (List (String × String) × List String)
  | vars, [] => .ok (vars, [])
  | vars, arg :: rest =>
    if arg == "-" || arg == "-i" then environmentOf [] rest
    else if arg == "--" then .ok (assigned vars rest)
    else
      match arg.toList, rest with
      | ['-', 'u'], name :: rest => environmentOf (vars.filter (·.1 != name)) rest
      | ['-', 'u'], [] => .error "option requires an argument -- 'u'"
      | '-' :: c :: _, _ => .error (if c == '-' then s!"unrecognized option '{arg}'" else s!"invalid option -- '{c}'")
      | _, _ => .ok (assigned vars (arg :: rest))
where
  /-- The variables after assignments, and the command behind them. -/
  assigned (vars : List (String × String)) : List String → List (String × String) × List String
    | [] => (vars, [])
    | arg :: rest =>
      match nameAndValue arg with
      | (name, some value) => assigned (vars.filter (·.1 != name) ++ [(name, value)]) rest
      | _ => (vars, arg :: rest)

mutual

/-- Run a command, and what signals lead to before and after it; the status that it ends with. -/
def run : Nat → Manner → Command → Action Nat
  | 0, _, _ => throw .exhausted
  | fuel + 1, m, c => do
    let idle := match c with
      | .nothing => true
      | _ => false
    let (checks, status) ←
      if idle || (← hasOption 'n') then pure (false, 0)
      else do
        runTraps fuel
        step fuel m c
    runTraps fuel
    if checks && status != 0 && !m.tested && (← hasOption 'e') then
      onProcess fun p => { p with ending := none }
      throw .exit
    if m.last then throw .exit
    return (← process).status

/-- Run a command; whether a failure of it ends a script that is to end on failures, and its status. -/
def step : Nat → Manner → Command → Action (Bool × Nat)
  | 0, _, _ => throw .exhausted
  | fuel + 1, m, c => do
    let ending (checks : Bool) (status : Nat) : Action (Bool × Nat) := do
      setStatus status
      return (checks, status)
    let skips : Action Bool := return (← process).skip != .none
    match c with
    | .nothing => return (false, 0)
    | .simple line assigns words redirects => ending true (← runSimple fuel m line assigns words redirects)
    | .redirected line body redirects =>
      onProcess fun p => { p with line }
      let rs ← redirects.mapM (targetOf (capture fuel) fuel)
      let saved ← descriptorsOf rs
      let (failed, status) ← afterwards (do
        if ← redirectAll (capture fuel) fuel rs then return (false, ← run fuel { tested := m.tested } body)
        else return (true, 2))
        (putDescriptorsBack saved)
      ending failed status
    | .negate body =>
      let status ← run fuel { tested := true } body
      if ← skips then return (false, status)
      ending false (if status == 0 then 1 else 0)
    | .pipe stages =>
      let statuses ← runStages fuel m.tested none stages
      let numbers ← statuses.mapM statusOf
      receiveAll
      ending true (numbers.getLast?.getD 0)
    | .background line body redirects =>
      onProcess fun p => { p with line }
      let rs ← redirects.mapM (targetOf (capture fuel) fuel)
      let id := (← world).nextProcess
      let status ← fork fuel do
        openAs 0 { target := .device .null, reads := true }
        rs.forM (redirect (capture fuel) fuel)
        let _ ← run fuel { last := true } body
      onProcess fun p => { p with background := some id, jobs := p.jobs ++ [(id, status)] }
      receiveAll
      ending true 0
    | .both left right =>
      let status ← run fuel { tested := true } left
      if status != 0 || (← skips) then return (false, status)
      ending false (← run fuel m right)
    | .either left right =>
      let status ← run fuel { tested := true } left
      if status == 0 || (← skips) then return (false, status)
      ending false (← run fuel m right)
    | .sequence first next =>
      let status ← run fuel { tested := m.tested } first
      if ← skips then return (false, status)
      ending false (← run fuel m next)
    | .subshell line body redirects =>
      onProcess fun p => { p with line }
      let rs ← redirects.mapM (targetOf (capture fuel) fuel)
      let body : Action Unit := do
        rs.forM (redirect (capture fuel) fuel)
        let _ ← run fuel { last := true, tested := m.tested } body
      if m.last && !(← process).catches then
        body
        return (true, 0)
      let status ← statusOf (← fork fuel body)
      receiveAll
      ending true status
    | .choose condition body otherwise =>
      let status ← run fuel { tested := true } condition
      if ← skips then return (false, status)
      if status == 0 then ending false (← run fuel m body)
      else
        match otherwise with
        | .nothing => ending false 0
        | otherwise => ending false (← run fuel m otherwise)
    | .loop whileTrue condition body =>
      onProcess fun p => { p with loops := p.loops + 1 }
      let status ← runLoop fuel m.tested whileTrue condition body 0
      onProcess fun p => { p with loops := p.loops - 1 }
      ending false status
    | .each line name words body =>
      onProcess fun p => { p with line }
      let fields ← wordsFields (capture fuel) fuel words
      onProcess fun p => { p with loops := p.loops + 1 }
      let status ← runEach fuel m.tested name body fields 0
      onProcess fun p => { p with loops := p.loops - 1 }
      ending false status
    | .select line word arms =>
      onProcess fun p => { p with line }
      let text ← wordText (capture fuel) fuel .text word
      match ← chosenArm fuel text arms with
      | none => ending false 0
      | some .nothing => ending false 0
      | some body => ending false (← run fuel m body)
    | .define _ name body =>
      onProcess fun p => { p with functions := (name, body) :: p.functions.filter (·.1 != name) }
      ending false 0

/-- Run the rounds of a loop; the status of the last one before is given. -/
def runLoop : Nat → Bool → Bool → Command → Command → Nat → Action Nat
  | 0, _, _, _, _, _ => throw .exhausted
  | fuel + 1, tested, whileTrue, condition, body, before => do
    let found ← run fuel { tested := true } condition
    let returns := (← process).skip == .return
    match ← endRound with
    | .leave => return if returns then found else before
    | .again => runLoop fuel tested whileTrue condition body before
    | .next =>
      if (found == 0) != whileTrue then return before
      let status ← run fuel { tested } body
      match ← endRound with
      | .leave => return status
      | _ => runLoop fuel tested whileTrue condition body status

/-- Run a command once for each text. -/
def runEach : Nat → Bool → String → Command → List String → Nat → Action Nat
  | 0, _, _, _, _, _ => throw .exhausted
  | _ + 1, _, _, _, [], status => return status
  | fuel + 1, tested, name, body, field :: fields, _ => do
    assign name field
    let status ← run fuel { tested } body
    match ← endRound with
    | .leave => return status
    | _ => runEach fuel tested name body fields status

/-- The body of the first arm with a pattern that accepts a text. -/
def chosenArm : Nat → String → List (List Word × Command) → Action (Option Command)
  | 0, _, _ => throw .exhausted
  | _ + 1, _, [] => return none
  | fuel + 1, text, (patterns, body) :: arms => do
    match patterns with
    | [] => chosenArm fuel text arms
    | w :: patterns =>
      if (← wordPattern (capture fuel) fuel w).accepts text.toList then return some body
      else chosenArm fuel text ((patterns, body) :: arms)

/-- Run the stages of a pipeline, of which the first one reads from a pipe if one is given. -/
def runStages : Nat → Bool → Option Nat → List Command → Action (List ExitStatus)
  | 0, _, _, _ => throw .exhausted
  | _ + 1, _, _, [] => return []
  | fuel + 1, tested, input, stage :: stages => do
    let output ← if stages.isEmpty then pure none else some <$> newPipe
    let status ← fork fuel do
      connect input output
      let _ ← run fuel { last := true, tested } stage
    return status :: (← runStages fuel tested output stages)

/-- Run a simple command; its status. -/
def runSimple : Nat → Manner → Nat → List Word → List Word → List Redirect → Action Nat
  | 0, _, _, _, _, _ => throw .exhausted
  | fuel + 1, m, line, assigns, words, redirects => do
    onProcess fun p => { p with line, outputStatus := 0 }
    let call ← callOf (capture fuel) fuel words
    let special := (call.map (·.special)).getD false
    let restores := call.isSome && !special
    let replaces := (call.bind (·.fields.head?)) == some "exec"
    let exports := replaces && (call.map (decide <| 1 < ·.fields.length)).getD false
    if restores then beginRestore
    afterwards (do
      let rs ← redirects.mapM (targetOf (capture fuel) fuel)
      let saved ← descriptorsOf rs
      let errors := (← process).descriptors.lookup 2
      afterwards (do
        if !(← redirectAll (capture fuel) fuel rs) then
          setStatus 2
          if special then throw .failed
          return 2
        let mut texts : List String := []
        for w in assigns do
          let text ← wordText (capture fuel) fuel .assignment w
          assignBefore restores exports text
          texts := texts ++ [text]
        if ← hasOption 'x' then
          let fields := (call.map fun call => call.before ++ call.fields).getD []
          trace (capture fuel) fuel errors (texts ++ fields)
        match call with
        | none => return (← process).outputStatus
        | some call => runCall fuel m call)
        (if replaces then return () else putDescriptorsBack saved))
      (if restores then endRestore else return ())

/-- Run what a simple command calls. -/
def runCall : Nat → Manner → Call → Action Nat
  | 0, _, _ => throw .exhausted
  | fuel + 1, m, call => do
    let st ← get
    let path := call.path.getD st.process.searchPath
    let name := call.fields.head?.getD ""
    match meaningOf st.world.disk st.process call.functions path name with
    | .function body => runFunction fuel m.tested body (call.fields.drop 1)
    | .builtin _ => runBuiltin fuel m.tested call.special name (call.fields.drop 1)
    | .nothing isThere =>
      complainAt s!"{name}: {absenceText isThere}"
      return 127
    | .program _ =>
      if m.last && !st.process.catches then
        execute fuel path call.fields
        return 0
      let status ← statusOf (← fork fuel (execute fuel path call.fields))
      receiveAll
      return status

/-- Run a function with arguments of its own. -/
def runFunction : Nat → Bool → Command → List String → Action Nat
  | 0, _, _, _ => throw .exhausted
  | fuel + 1, tested, body, args => do
    let before ← process
    onProcess fun p => { p with args, loops := 0, nextArgument := 1, nextLetter := none }
    afterwards (run fuel { tested } body) <| onProcess fun p =>
      { p with
        args := before.args
        loops := before.loops
        nextArgument := before.nextArgument
        nextLetter := before.nextLetter
        skip := if p.skip == .return then .none else p.skip }

/-- Run a command of the shell. A failure of one that is not special ends that command alone. -/
def runBuiltin : Nat → Bool → Bool → String → List String → Action Nat
  | 0, _, _, _, _ => throw .exhausted
  | fuel + 1, tested, special, name, args => do
    let before := (← process).command
    onProcess fun p => { p with command := some name }
    let leave : Action Unit := onProcess fun p => { p with command := before, outputFailed := false }
    let body : Action Nat := match name with
      | "eval" => if args.isEmpty then return 0 else runText fuel tested (String.intercalate " " args)
      | "." => runDot fuel args
      | "exec" => runReplace fuel args
      | name => match builtin? name with
        | some body => body args
        | none => return 0
    tryCatch (do
      let status ← body
      let failed := (← process).outputFailed
      if failed then complainAt s!"{name}: I/O error"
      let status := if failed && status % 2 == 0 then status + 1 else status
      setStatus status
      leave
      return status) fun stop => do
        leave
        if stop == .failed && !special then return (← process).status else throw stop

/-- Read a script in. -/
def runDot : Nat → List String → Action Nat
  | 0, _ => throw .exhausted
  | fuel + 1, args => do
    match ← operandsOf args with
    | [] => return 0
    | name :: _ =>
      let path ← dotPath name
      match ← scriptAt path with
      | .error fault => fail s!"cannot open {path}: {openReason false fault}"
      | .ok bytes =>
        onProcess fun p => { p with command := some path }
        let status ← runCursor fuel false (.ofBytes bytes) 0
        onProcess fun p => { p with skip := if p.skip == .return then .none else p.skip }
        return status

/-- Let a program take the place of the shell. -/
def runReplace : Nat → List String → Action Nat
  | 0, _ => throw .exhausted
  | fuel + 1, args => do
    match ← operandsOf args with
    | [] => return 0
    | args =>
      execute fuel (← process).searchPath args
      return 0

/-- Run the commands of a text; the status of the last one. -/
def runText : Nat → Bool → String → Action Nat
  | 0, _, _ => throw .exhausted
  | fuel + 1, tested, s => runCursor fuel tested { text := s.toList } 0

/-- Run the commands from a cursor on; the status of the last one before is given. -/
def runCursor : Nat → Bool → Cursor → Nat → Action Nat
  | 0, _, _, _ => throw .exhausted
  | fuel + 1, tested, c, before => do
    match ← readNext c with
    | (none, _) => return before
    | (some body, c) =>
      let outerLine := (← process).readLine
      let found ← afterwards (do
        onProcess fun p =>
          { p with readLine := c.line, scriptLine := if c.isScript then c.line else p.scriptLine }
        run fuel { tested } body)
        (onProcess fun p => { p with readLine := outerLine })
      let status := match body with
        | .nothing => before
        | _ => found
      if (← process).skip != .none then return status
      else runCursor fuel tested c status

/-- The output of a command. -/
def capture : Nat → Command → Action (List UInt8)
  | 0, _ => throw .exhausted
  | fuel + 1, body => do
    match body with
    | .nothing => return []
    | body =>
      let n ← newPipe
      let status ← fork fuel do
        connect none (some n)
        let _ ← run fuel { last := true } body
      let number ← statusOf status
      onProcess fun p => { p with outputStatus := number }
      receiveAll
      let bytes := ((← world).pipes[n]?).getD []
      onWorld fun w => { w with pipes := w.pipes.modify n fun _ => [] }
      return bytes

/-- Run something as a process of its own. -/
def fork : Nat → Action Unit → Action ExitStatus
  | 0, _ => throw .exhausted
  | fuel + 1, body => do
    let id := (← world).nextProcess
    onWorld fun w => { w with nextProcess := id + 1 }
    isolated do
      onProcess (·.child id)
      conclude fuel body

/-- Run a process to its end, and then the command that the end leads to. -/
def conclude : Nat → Action Unit → Action ExitStatus
  | 0, _ => throw .exhausted
  | fuel + 1, body => do
    let stopOf (body : Action Unit) : Action (Option Stop) :=
      tryCatch (do
        body
        return none) fun stop => return some stop
    match ← stopOf body with
    | some .exhausted => throw .exhausted
    | some (.killed signal) => return .signalled signal false
    | _ =>
      let p ← process
      match p.traps.lookup 0 with
      | none => return .exited (p.status % 256)
      | some action =>
        onProcess (·.unwound p.status)
        match ← stopOf (discard (runText fuel false action)) with
        | some .exhausted => throw .exhausted
        | some (.killed signal) => return .signalled signal false
        | some .failed => return .exited ((← process).status % 256)
        | _ =>
          let q ← process
          return .exited (q.ending.getD q.status % 256)

/-- Run the commands that signals have led to since the last time. -/
def runTraps : Nat → Action Unit
  | 0 => throw .exhausted
  | fuel + 1 => do
    let p ← process
    match p.pending.mergeSort with
    | [] => return ()
    | signal :: rest =>
      if p.skip != .none then return ()
      let status := p.ending.getD p.status
      onProcess fun p => { p with pending := rest.filter (· != signal), ending := some status }
      let _ ← runText fuel false ((p.traps.lookup signal).getD "")
      onProcess fun q => { q with ending := p.ending, status := if q.skip == .return then q.status else status }
      runTraps fuel

/-- Let a program that is looked for along a path take the place of the process. -/
def execute : Nat → String → List String → Action Unit
  | 0, _, _ => throw .exhausted
  | fuel + 1, path, argv => do
    let name := argv.head?.getD ""
    let st ← get
    let paths := if name.contains '/' then [name] else candidates path name
    let refuse (fault : IoFault) : Action Unit := do
      let (reason, status) := absenceOf fault
      complainAt s!"{name}: {reason}"
      setStatus status
      throw .exit
    match invocationAmong st.world.disk st.process.here paths .notFound with
    | .error fault => refuse fault
    | .ok i =>
      let argv := i.arguments encode argv
      if areTooLong (argv.map String.length) then refuse .argumentsTooLong
      else become fuel i.program argv

/-- Go on as a program. -/
def become : Nat → String → List String → Action Unit
  | 0, _, _ => throw .exhausted
  | fuel + 1, program, argv => do
    let args := argv.drop 1
    let name := argv.head?.getD ""
    if program == "sh" || program == "dash" then
      onProcess (·.asShell name)
      endAs (← conclude fuel (runShell fuel args))
    else
      onProcess fun p => { p with name, traps := p.ignored, pending := [], command := none, options := [] }
      if program == "env" then runEnvironment fuel args
      else
        match utilities.lookup program with
        | some body => endAs (.exited (← body args))
        | none => endAs (.exited 0)

/-- Run a program in an environment of its own, or print the environment. -/
def runEnvironment : Nat → List String → Action Unit
  | 0, _ => throw .exhausted
  | fuel + 1, args => do
    match environmentOf (← process).exports args with
    | .error flaw => endAs (.exited (← misuse flaw 125))
    | .ok (environment, argv) =>
      onProcess fun p =>
        { p with vars := environment.map fun (name, value) => (name, ⟨some value, true, false⟩) }
      match argv with
      | [] =>
        let text := String.join (environment.map fun (name, value) => s!"{name}={value}\n")
        endAs (.exited (← emitText text.toList))
      | name :: _ =>
        let st ← get
        let d := st.world.disk
        let here := st.process.here
        let found :=
          if name.isEmpty then .error .notFound
          else if name.contains '/' then
            match d.invocation here (decode name) with
            | .error .badProgram => invocationAmong d here [name] .notFound
            | result => result
          else invocationAmong d here (candidates st.process.searchPath name) .notFound
        match found with
        | .ok i => become fuel i.program (i.arguments encode argv)
        | .error fault =>
          report s!"{quotedArgument name}: {reasonOf fault}"
          if fault == .notFound && name.toList.any fun c => c == ' ' || ('\t' ≤ c && c ≤ '\r') then
            report "use -[v]S to pass options in shebang lines"
          endAs (.exited (if fault == .notFound then 127 else 126))

/-- Run a shell on its arguments. -/
def runShell : Nat → List String → Action Unit
  | 0, _ => throw .exhausted
  | fuel + 1, args => do
    let scriptOf (bytes : List UInt8) : Action Unit := do
      let _ ← runCursor fuel false { Cursor.ofBytes bytes with isScript := true } 0
    match ← readShellArguments args with
    | .text s =>
      let _ ← runText fuel false s
      if (← hasOption 's') && (← process).skip == .none then scriptOf ((← readRest 0).getD [])
    | .input => scriptOf ((← readRest 0).getD [])
    | .file path =>
      match ← scriptAt path with
      | .ok bytes =>
        onProcess fun p => { p with name := path }
        scriptOf bytes
      | .error fault => fail s!"cannot open {path}: {openReason false fault}"

end

end BoundaryProxy.Shell
