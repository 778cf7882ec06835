import BoundaryProxy.Shell.Builtin.Option
import BoundaryProxy.Shell.Field

/-!
# `BoundaryProxy.Shell.Builtin.Variable` — the commands that work on variables

Marking and forgetting variables, variables of a function, the options and arguments of the script, options of
scripts that are read with `getopts`, and lines that are read into variables.
-/

namespace BoundaryProxy.Shell

/-- A name and, after an equals sign, a value. -/
def nameAndValue (s : String) : String × Option String :=
  let name := s.toList.takeWhile (· != '=')
  match s.toList.drop name.length with
  | _ :: value => (String.ofList name, some (String.ofList value))
  | [] => (s, none)

/-- Refuse a text that is no name. -/
def requireName (name : String) : Action Unit :=
  if isName name.toList then return () else fail s!"{name}: bad variable name"

/-! ## Marks -/

/-- The variables that satisfy a condition, as lines that would set them. -/
def variableLines (p : Process) (head : String) (shown : Variable → Bool) : List String :=
  let vars := (p.vars.filter fun (_, v) => shown v).mergeSort fun a b => a.1 ≤ b.1
  vars.map fun (name, v) =>
    match v.value with
    | some value => s!"{head}{name}={quotedText value}"
    | none => s!"{head}{name}"

/-- Write lines. -/
def writeLines (lines : List String) : Action Unit := do
  let _ ← write 1 (lines.flatMap fun line => line.toList ++ ['\n'])

/-- Mark variables, or list those that are marked. -/
def runMark (fixes : Bool) (args : List String) : Action Nat := do
  let (options, args) ← builtinOptions [('p', false)] args
  if args.isEmpty || !options.isEmpty then
    let p ← process
    if fixes then writeLines (variableLines p "readonly " (·.fixed))
    else writeLines (variableLines p "export " (·.exported))
    return 0
  for arg in args do
    let (name, value) := nameAndValue arg
    match value, (← process).vars.lookup name with
    | none, some v =>
      onProcess (·.putVariable name (some { v with exported := v.exported || !fixes, fixed := v.fixed || fixes }))
    | value, _ =>
      requireName name
      setVariable name value (!fixes) fixes
  return 0

/-- Forget variables or functions. -/
def runUnset (args : List String) : Action Nat := do
  let (options, names) ← builtinOptions [('v', false), ('f', false)] args
  let ofFunctions := options.getLast?.map (·.1) == some 'f'
  for name in names do
    if ofFunctions then onProcess fun p => { p with functions := p.functions.filter (·.1 != name) }
    else
      let (name, _) := nameAndValue name
      requireName name
      forget name
  return 0

/-- Make variables of the function that runs. -/
def runLocal (args : List String) : Action Nat := do
  if (← process).restores.isEmpty then fail "not in a function"
  for arg in args do
    if arg == "-" then
      onProcess fun p =>
        match p.restores with
        | [] => p
        | r :: rs => { p with restores := { r with options := some (r.options.getD p.options) } :: rs }
    else
      let (name, value) := nameAndValue arg
      let known := ((← process).vars.lookup name).isSome
      if value.isNone && !known then requireName name
      keepVariable name
      if value.isSome || !known then setVariable name value
  return 0

/-! ## Options and arguments of the script -/

/-- The names of the options that no letter stands for, and all others. -/
def optionOf? (name : String) : Option Char :=
  optionTable.lookup name

/-- Set an option that is given by its letter. -/
def setOptionLetter (c : Char) (on : Bool) : Action Unit := do
  if !optionLetters.contains c then fail s!"Illegal option -{c}"
  setOption c on
  if on && c == 'V' then setOption 'E' false
  if on && c == 'E' then setOption 'V' false

/-- Set an option that is given by its name, or list all options. -/
def setOptionName (name : Option String) (on : Bool) : Action Unit := do
  let p ← process
  match name with
  | some name =>
    match optionOf? name with
    | some c => setOption c on
    | none => fail s!"Illegal option -o {name}"
  | none =>
    let sign (c : Char) : Bool := p.options.contains c
    if on then
      writeLines ("Current option settings" :: optionTable.map fun (name, c) =>
        let gap := String.ofList (List.replicate (16 - name.length) ' ')
        let state := if sign c then "on" else "off"
        s!"{name}{gap}{state}")
    else writeLines (optionTable.map fun (name, c) =>
      let mark := if sign c then "-" else "+"
      s!"set {mark}o {name}")

/-- Set the options of one argument, and say how many of the arguments behind it they take. -/
def setOptionLetters (on : Bool) (rest : List String) : List Char → Action Nat
  | [] => return 0
  | c :: letters => do
    if c == 'o' then
      setOptionName rest.head? on
      let taken ← setOptionLetters on (rest.drop 1) letters
      return taken + min 1 rest.length
    else
      setOptionLetter c on
      setOptionLetters on rest letters

/-- Set the options at the front of arguments. What is left are arguments for the script, if there is anything
    or if a divider says so. -/
def setOptions : Nat → List String → Action (Option (List String))
  | 0, _ => return none
  | _ + 1, [] => return none
  | fuel + 1, arg :: rest => do
    match arg.toList with
    | ['-'] =>
      setOption 'x' false
      setOption 'v' false
      return if rest.isEmpty then none else some rest
    | ['-', '-'] => return some rest
    | sign :: letters =>
      if sign == '-' || sign == '+' then
        let taken ← setOptionLetters (sign == '-') rest letters
        setOptions fuel (rest.drop taken)
      else return some (arg :: rest)
    | [] => return some (arg :: rest)

/-- Give the script arguments; options are looked for from the first one on. -/
def setArguments (args : List String) : Action Unit :=
  onProcess fun p => { p with args, nextArgument := 1, nextLetter := none }

/-- Set options and arguments, or list all variables. -/
def runSet (args : List String) : Action Nat := do
  if args.isEmpty then
    writeLines (variableLines (← process) "" (·.value.isSome))
  else
    match ← setOptions (args.length + 1) args with
    | some rest => setArguments rest
    | none => return 0
  return 0

/-- Drop the first arguments of the script. -/
def runShift (args : List String) : Action Nat := do
  let n ← match args with
    | [] => pure 1
    | arg :: _ => numberOf arg
  let p ← process
  if p.args.length < n then fail "can't shift that many"
  setArguments (p.args.drop n)
  return 0

/-! ## Options of scripts -/

/-- What is left of the argument in which `getopts` goes on, if anything is. -/
def letterRest (p : Process) (args : List String) : List Char :=
  match p.nextLetter, p.nextArgument with
  | some offset, n + 2 => ((args[n]?).getD "").toList.drop offset
  | _, _ => []

/-- End a step of `getopts`. -/
def endOption (name : String) (value : Char) (nextArgument : Nat) (nextLetter : Option Nat) : Action Unit := do
  setVariable "OPTIND" (some (toString nextArgument))
  onProcess fun p => { p with nextArgument, nextLetter }
  assignChecked name (String.singleton value)
  onProcess fun p => { p with nextArgument, nextLetter }

/-- Report an option of which something is wrong, and give what stands for it. -/
def reportOption (silent : Bool) (what : String) (option silentValue : Char) : Action Char := do
  if silent then
    assign "OPTARG" (String.singleton option)
    return silentValue
  else
    complain what
    forget "OPTARG"
    return '?'

/-- What a list of letters says of an option: whether it takes a value. -/
def takesValue? (option : Char) : List Char → Option Bool
  | [] => none
  | c :: ':' :: rest => if c == option then some true else takesValue? option rest
  | c :: rest => if c == option then some false else takesValue? option rest

/-- Read the next option of arguments into a variable. -/
def nextOption (letters name : String) (args : List String) : Action Nat := do
  let p ← process
  let silent := letters.toList.head? == some ':'
  let current := letterRest p args
  -- The place of the argument, and what of it is left with the next letter at its front.
  let step : Option (Nat × List Char) × Nat :=
    if !current.isEmpty then (some (p.nextArgument, current), p.nextArgument)
    else
      match (args[p.nextArgument - 1]?).map String.toList with
      | some ['-', '-'] => (none, p.nextArgument + 1)
      | some ('-' :: c :: rest) => (some (p.nextArgument + 1, c :: rest), p.nextArgument + 1)
      | _ => (none, p.nextArgument)
  match step with
  | (some (next, c :: rest), _) =>
    let inside : Option Nat :=
      if rest.isEmpty then none else some (((args[next - 2]?).getD "").length - rest.length)
    match takesValue? c letters.toList with
    | none =>
      let value ← reportOption silent s!"Illegal option -{c}" c '?'
      endOption name value next inside
    | some false =>
      assign "OPTARG" ""
      endOption name c next inside
    | some true =>
      if !rest.isEmpty then
        assign "OPTARG" (String.ofList rest)
        endOption name c next none
      else
        match args[next - 1]? with
        | some value =>
          assign "OPTARG" value
          endOption name c (next + 1) none
        | none =>
          let value ← reportOption silent s!"No arg for -{c} option" c ':'
          endOption name value next none
    return 0
  | (_, next) =>
    endOption name '?' next none
    return 1

/-- Read an option of the script, or of other arguments. -/
def runGetOptions (args : List String) : Action Nat := do
  match ← operandsOf args with
  | letters :: name :: others =>
    let p ← process
    let args := if others.isEmpty then p.args else others
    if args.length + 1 < p.nextArgument then
      onProcess fun p => { p with nextArgument := 1, nextLetter := none }
    nextOption letters name args
  | _ => fail "Usage: getopts optstring var [arg...]"

/-! ## Lines that are read -/

/-- How far a line has been read: the marks of its characters, the last one first, how many bytes that took,
    and whether a newline ended it. -/
structure LineRead where
  marks : List Mark := []
  taken : Nat := 0
  complete : Bool := false

/-- Read a line of bytes. A backslash escapes the next character and joins lines, unless it is to be read as
    any other character. -/
def readLine (raw : Bool) : List Char → LineRead → LineRead
  | [], l => l
  | '\\' :: rest, l =>
    if raw then readLine raw rest { l with marks := .char '\\' false :: l.marks, taken := l.taken + 1 }
    else
      match rest with
      | [] => { l with taken := l.taken + 1 }
      | '\n' :: rest => readLine raw rest { l with taken := l.taken + 2 }
      | c :: rest => readLine raw rest { l with marks := .char c true :: l.marks, taken := l.taken + 2 }
  | '\n' :: _, l => { l with taken := l.taken + 1, complete := true }
  | '\x00' :: rest, l => readLine raw rest { l with taken := l.taken + 1 }
  | c :: rest, l => readLine raw rest { l with marks := .char c false :: l.marks, taken := l.taken + 1 }

/-- The runs of marks that are not escaped, as regions. -/
def plainRegions (marks : List Mark) : Array Region :=
  let (start, e) := marks.zipIdx.foldl (fun (start, regions) (m, i) =>
    match m with
    | .char _ true => (i + 1, (regions : Array Region).push ⟨start, i, false⟩)
    | _ => (start, regions)) (0, #[])
  e.push ⟨start, marks.length, false⟩

/-- Give each name a field; names without a field get the empty text. -/
def assignFields : List String → List String → Action Unit
  | [], _ => return ()
  | name :: names, fields => do
    assignChecked name (fields.head?.getD "")
    assignFields names fields.tail

/-- Read a line of standard input into variables; the last one takes all that is left of the line. -/
def runRead (args : List String) : Action Nat := do
  let (options, names) ← builtinOptions [('p', true), ('r', false)] args
  if names.isEmpty then fail "arg count"
  let raw := options.any (·.1 == 'r')
  let bytes := ((← available 0).getD [])
  let line := readLine raw (ofBytes bytes) {}
  consume 0 line.taken
  let marks := line.marks.reverse
  let e : Expanded := { marks := marks.toArray, regions := plainRegions marks }
  let fields := e.fields (← process).separators (some names.length)
  assignFields names (fields.map textOf)
  return if line.complete then 0 else 1

end BoundaryProxy.Shell
