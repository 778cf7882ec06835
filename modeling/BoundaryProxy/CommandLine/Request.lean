import BoundaryProxy.CommandLine.Option

/-!
# `BoundaryProxy.CommandLine.Request` — what a user asks for

The arguments of the program are a command with its operands and options; two options that do not depend on
the command may stand before it or after it, where the one after it counts.
-/

namespace BoundaryProxy.CommandLine

/-- A command with its operands and options. -/
inductive Command where
  /-- Write the proxies of interfaces, or of all that are worth one. -/
  | generate (catalog : String) (interfaces : List String) (directory : String) (profile : Option String)
      (toStdout : Bool)
  /-- Compile the proxy of one interface. -/
  | compile (catalog : String) (interface : String) (references : List String) (compiler : String)
      (image : Option String) (checkOnly : Bool) (profile : Option String)
  /-- List the registries of the host. -/
  | registries (catalog : String) (profile : Option String) (asJson : Bool)
  /-- Write the default profile. -/
  | initConfig (path : String) (force : Bool)
deriving Repr, DecidableEq

/-- A command and the options that do not depend on it. -/
structure Request where
  color : Option String
  verbosity : Nat
  command : Command
deriving Repr, DecidableEq

/-- The names of the commands. -/
inductive CommandName where
  | generate
  | compile
  | registries
  | initConfig
deriving Repr, DecidableEq

/-- What help is asked for. -/
inductive Topic where
  | program
  | command (name : CommandName)
  /-- The command that gives help. -/
  | help
deriving Repr, DecidableEq

/-- What is answered without running a command. -/
inductive Reply where
  | flaw (f : ArgumentFlaw)
  | help (topic : Topic)
  | version
deriving Repr, DecidableEq

/-! ## The options -/

/-- The options of every command. -/
def commonOptions : List OptionSpec :=
  [⟨"color", none, .value, "WHEN", "When to use colors: auto, always, never"⟩,
    ⟨"verbose", some 'v', .counter, "", "Increase log verbosity (-v debug, -vv trace)"⟩,
    ⟨"help", some 'h', .question, "", "Print help"⟩]

/-- The options before a command. -/
def leadingOptions : List OptionSpec :=
  commonOptions ++ [⟨"version", some 'V', .question, "", "Print version"⟩]

/-- The profile option, which several commands have. -/
def profileOption : OptionSpec :=
  ⟨"config", some 'c', .path, "CONFIG", "Host profile (default: ./proxygen.toml if present)"⟩

namespace CommandName

/-- All commands in the order in which they are listed. -/
def all : List CommandName :=
  [generate, compile, registries, initConfig]

/-- The name of a command. -/
def text : CommandName → String
  | generate => "generate"
  | compile => "compile"
  | registries => "registries"
  | initConfig => "init-config"

/-- The command of a name. -/
def ofString? (name : String) : Option CommandName :=
  all.find? (·.text == name)

/-- The options that belong to a command alone. -/
def ownOptions : CommandName → List OptionSpec
  | generate =>
    [⟨"interface", some 'i', .values, "NAME", "Interfaces to wrap, by full or simple name (default: all)"⟩,
      ⟨"out-dir", some 'o', .path, "OUT_DIR", "Output directory [default: .]"⟩, profileOption,
      ⟨"stdout", none, .flag, "", "Print source to stdout instead of writing files"⟩]
  | compile =>
    [⟨"interface", some 'i', .value, "NAME", "Interface to wrap"⟩,
      ⟨"reference", some 'r', .values, "REF", "Assembly references"⟩,
      ⟨"compiler", none, .value, "COMPILER", "Compiler executable [default: csc]"⟩,
      ⟨"out", some 'o', .path, "OUT", "Output image (default: <Class>.dll)"⟩,
      ⟨"check-only", none, .flag, "", "Run the built-in checks only"⟩, profileOption]
  | registries => [profileOption, ⟨"json", none, .flag, "", "Print descriptors as JSON"⟩]
  | initConfig => [⟨"force", some 'f', .flag, "", "Overwrite an existing file"⟩]

/-- The options of a command. -/
def options (c : CommandName) : List OptionSpec :=
  commonOptions ++ c.ownOptions

end CommandName

/-! ## Reading arguments -/

/-- The answer to a question among the options. -/
def answer? (topic : Topic) (g : Given) : Option Reply :=
  if g.has "help" then some (.help topic)
  else if g.has "version" then some .version
  else none

/-- Go on with the rest of the arguments unless an option asks a question. -/
def proceed {α : Type} (topic : Topic) (progress : Progress)
    (next : Given → Option OptionSpec → Except Reply α) : Except Reply α :=
  match progress with
  | .error flaw => .error (.flaw flaw)
  | .ok (g, pending) =>
    match answer? topic g with
    | some reply => .error reply
    | none => next g pending

/-- Take an operand; there is at most one, and it names a file. -/
def takeOperand (g : Given) (arg : String) : Except Reply Given :=
  if !g.operands.isEmpty then .error (.flaw (.unknown arg))
  else if arg.isEmpty then .error (.flaw (.valueEmpty "operand"))
  else .ok { g with operands := g.operands ++ [arg] }

/-- Read the arguments after a command. -/
def readTail (name : CommandName) (g : Given) (pending : Option OptionSpec) :
    List String → Except Reply Given
  | [] =>
    match pending with
    | some spec => .error (.flaw (.valueMissing spec.name))
    | none => .ok g
  | arg :: rest =>
    match pending, ArgumentForm.of arg with
    | some spec, .operand =>
      proceed (.command name) ((g.add spec arg).map fun g => (g, none)) fun g pending =>
        readTail name g pending rest
    | some spec, _ => .error (.flaw (.valueMissing spec.name))
    | none, .divider => rest.foldlM takeOperand g
    | none, .long long value =>
      proceed (.command name) (readLong name.options g long value) fun g pending =>
        readTail name g pending rest
    | none, .letters letters =>
      proceed (.command name) (readLetters name.options g letters) fun g pending =>
        readTail name g pending rest
    | none, .operand =>
      match takeOperand g arg with
      | .ok g => readTail name g none rest
      | .error reply => .error reply

/-- The operand that must be given. -/
def Given.operand (g : Given) (name : String) : Except Reply String :=
  match g.operands with
  | operand :: _ => .ok operand
  | [] => .error (.flaw (.operandMissing name))

/-- The command that options and operands describe. -/
def CommandName.command (c : CommandName) (g : Given) : Except Reply Command :=
  match c with
  | generate => do
    return .generate (← g.operand "<CATALOG>") (g.values "interface") ((g.value? "out-dir").getD ".")
      (g.value? "config") (g.has "stdout")
  | compile => do
    let catalog ← g.operand "<CATALOG>"
    match g.value? "interface" with
    | some interface =>
      return .compile catalog interface (g.values "reference") ((g.value? "compiler").getD "csc")
        (g.value? "out") (g.has "check-only") (g.value? "config")
    | none => .error (.flaw (.operandMissing "--interface <NAME>"))
  | registries => do
    return .registries (← g.operand "<CATALOG>") (g.value? "config") (g.has "json")
  | initConfig => return .initConfig (g.operands.head?.getD "proxygen.toml") (g.has "force")

/-- What the command that gives help is asked: for the help of the program, or of one command. -/
def readTopic : List String → Reply
  | [] => .help .program
  | [name] =>
    match CommandName.ofString? name with
    | some c => .help (.command c)
    | none => if name == "help" then .help .help else .flaw (.unknownCommand name)
  | name :: next :: _ =>
    .flaw (.unknownCommand (if (CommandName.ofString? name).isSome || name == "help" then next else name))

/-- Read the arguments up to a command and the command with the arguments after it. -/
def readHead (g : Given) (pending : Option OptionSpec) : List String → Except Reply Request
  | [] =>
    match pending with
    | some spec => .error (.flaw (.valueMissing spec.name))
    | none => .error (.flaw .commandMissing)
  | arg :: rest =>
    match pending, ArgumentForm.of arg with
    | some spec, .operand =>
      proceed .program ((g.add spec arg).map fun g => (g, none)) fun g pending => readHead g pending rest
    | some spec, _ => .error (.flaw (.valueMissing spec.name))
    | none, .divider => .error (.flaw .commandMissing)
    | none, .long name value =>
      proceed .program (readLong leadingOptions g name value) fun g pending => readHead g pending rest
    | none, .letters letters =>
      proceed .program (readLetters leadingOptions g letters) fun g pending => readHead g pending rest
    | none, .operand =>
      match CommandName.ofString? arg with
      | none => .error (if arg == "help" then readTopic rest else .flaw (.unknownCommand arg))
      | some name => do
        let tail ← readTail name {} none rest
        let verbosity := if tail.has "verbose" then tail.count "verbose" else g.count "verbose"
        return ⟨(tail.value? "color").or (g.value? "color"), verbosity, ← name.command tail⟩

/-- The request that arguments describe. -/
def Request.ofArgs (args : List String) : Except Reply Request :=
  readHead {} none args

end BoundaryProxy.CommandLine
