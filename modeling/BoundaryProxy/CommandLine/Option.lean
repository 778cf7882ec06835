/-!
# `BoundaryProxy.CommandLine.Option` — options and operands among arguments

Options are given by a long name after two dashes or by a letter after one; letters of options without a
value may be put together. A value stands in the same argument, after an equals sign or right after the
letter, or in the next argument, which must not look like an option then. After two dashes alone there are
only operands.
-/

namespace BoundaryProxy.CommandLine

/-- What an option takes. -/
inductive OptionKind where
  /-- Nothing; it is given at most once. -/
  | flag
  /-- Nothing; it may be given any number of times. -/
  | counter
  /-- Nothing; it asks for an answer in place of a command, so nothing after it is read. -/
  | question
  /-- A value; it is given at most once. -/
  | value
  /-- A value that names a file, so it must not be empty; it is given at most once. -/
  | path
  /-- A value; it may be given any number of times. -/
  | values
deriving Repr, DecidableEq

namespace OptionKind

/-- Whether an option takes a value. -/
def takesValue : OptionKind → Bool
  | flag => false
  | counter => false
  | question => false
  | _ => true

/-- Whether an option may be given more than once. -/
def repeats : OptionKind → Bool
  | counter => true
  | values => true
  | _ => false

end OptionKind

/-- An option. -/
structure OptionSpec where
  name : String
  letter : Option Char := none
  kind : OptionKind
  /-- What a value of the option is called. -/
  valueName : String := ""
  /-- What the option is for. -/
  purpose : String
deriving Repr, DecidableEq

/-- Why arguments are refused. -/
inductive ArgumentFlaw where
  | unknown (arg : String)
  | repeated (name : String)
  | valueMissing (name : String)
  | valueGiven (name : String)
  | valueEmpty (name : String)
  | operandMissing (name : String)
  | unknownCommand (name : String)
  | commandMissing
deriving Repr, DecidableEq

/-- The flaw in words. -/
def ArgumentFlaw.text : ArgumentFlaw → String
  | unknown arg => s!"unexpected argument '{arg}' found"
  | repeated name => s!"the argument '--{name}' cannot be used multiple times"
  | valueMissing name => s!"a value is required for '--{name}' but none was supplied"
  | valueGiven name => s!"unexpected value for '--{name}' found; no more were expected"
  | valueEmpty name => s!"a value is required for '{name}' but none was supplied"
  | operandMissing name => s!"the following required arguments were not provided: {name}"
  | unknownCommand name => s!"unrecognized subcommand '{name}'"
  | commandMissing => "a subcommand is required but one was not provided"

/-- The options that were given, in order, and what is left of the arguments. -/
structure Given where
  /-- The options by name, each with its value or the empty text. -/
  options : List (String × String) := []
  operands : List String := []
deriving Repr, DecidableEq

namespace Given

/-- Whether an option was given. -/
def has (g : Given) (name : String) : Bool :=
  g.options.any (·.1 == name)

/-- How often an option was given. -/
def count (g : Given) (name : String) : Nat :=
  g.options.countP (·.1 == name)

/-- The value of an option. -/
def value? (g : Given) (name : String) : Option String :=
  g.options.lookup name

/-- The values of an option in order. -/
def values (g : Given) (name : String) : List String :=
  (g.options.filter (·.1 == name)).map (·.2)

/-- Add an option with its value. -/
def add (g : Given) (spec : OptionSpec) (value : String) : Except ArgumentFlaw Given :=
  if g.has spec.name && !spec.kind.repeats then .error (.repeated spec.name)
  else if spec.kind == .path && value.isEmpty then .error (.valueEmpty spec.name)
  else .ok { g with options := g.options ++ [(spec.name, value)] }

end Given

/-- What an argument is, as far as it can be told by itself. -/
inductive ArgumentForm where
  /-- Two dashes: the rest are operands. -/
  | divider
  | long (name : String) (value : Option String)
  | letters (letters : List Char)
  | operand
deriving Repr, DecidableEq

/-- The form of an argument. -/
def ArgumentForm.of (arg : String) : ArgumentForm :=
  match arg.toList with
  | ['-', '-'] => divider
  | '-' :: '-' :: r =>
    match r.dropWhile (· != '=') with
    | _ :: value => long (String.ofList (r.takeWhile (· != '='))) (some (String.ofList value))
    | [] => long (String.ofList r) none
  | '-' :: c :: r => letters (c :: r)
  | _ => operand

/-- What reading an option gives: the options so far, and the option whose value must follow. -/
abbrev Progress := Except ArgumentFlaw (Given × Option OptionSpec)

/-- Read an option that is given by its long name. -/
def readLong (specs : List OptionSpec) (g : Given) (name : String) (value : Option String) : Progress :=
  match specs.find? (·.name == name), value with
  | none, _ => .error (.unknown s!"--{name}")
  | some spec, some value =>
    if spec.kind.takesValue then (g.add spec value).map fun g => (g, none)
    else .error (.valueGiven name)
  | some spec, none =>
    if spec.kind.takesValue then .ok (g, some spec) else (g.add spec "").map fun g => (g, none)

/-- Read options that are given by letters. -/
def readLetters (specs : List OptionSpec) (g : Given) : List Char → Progress
  | [] => .ok (g, none)
  | c :: r =>
    match specs.find? (·.letter == some c) with
    | none => .error (.unknown s!"-{c}")
    | some spec =>
      if spec.kind.takesValue then
        match r with
        | [] => .ok (g, some spec)
        | '=' :: value => (g.add spec (String.ofList value)).map fun g => (g, none)
        | value => (g.add spec (String.ofList value)).map fun g => (g, none)
      else
        match g.add spec "" with
        | .ok g => if spec.kind == .question then .ok (g, none) else readLetters specs g r
        | .error flaw => .error flaw

end BoundaryProxy.CommandLine
