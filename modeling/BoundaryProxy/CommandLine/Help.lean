import BoundaryProxy.CommandLine.Request

/-!
# `BoundaryProxy.CommandLine.Help` — how the program is used, in words

The help of a command is laid out from its options: what the command does, how it is called, and a table each
of its operands and of its options.
-/

namespace BoundaryProxy.CommandLine

/-! ## Tables -/

/-- The rows of a table: the first column is as wide as its widest text. -/
def tableLines (rows : List (String × String)) : List String :=
  let width := (rows.map (·.1.length)).foldl max 0
  rows.map fun (left, right) =>
    let gap := String.ofList (List.replicate (width - left.length) ' ')
    s!"  {left}{gap}  {right}"

/-- A table under a title; one without rows is left out. -/
def tableBlock (title : String) (rows : List (String × String)) : List String :=
  if rows.isEmpty then [] else "" :: s!"{title}:" :: tableLines rows

/-- How an option is written. -/
def OptionSpec.form (o : OptionSpec) : String :=
  let short := match o.letter with
    | some c => s!"-{c}, "
    | none => "    "
  let tail :=
    if o.kind == .counter then "..." else if o.kind.takesValue then s!" <{o.valueName}>" else ""
  s!"{short}--{o.name}{tail}"

/-- The row of an option. -/
def OptionSpec.row (o : OptionSpec) : String × String :=
  (o.form, o.purpose)

/-! ## Commands -/

namespace CommandName

/-- What a command does. -/
def purpose : CommandName → String
  | generate => "Generate proxy source files"
  | compile => "Compile one proxy"
  | registries => "List registries discovered from the catalog's host root"
  | initConfig => "Write the default host profile"

/-- What must and what may follow the options of a command. -/
def operandForm : CommandName → String
  | generate => "<CATALOG>"
  | compile => "--interface <NAME> <CATALOG>"
  | registries => "<CATALOG>"
  | initConfig => "[PATH]"

/-- The row of the operand of a command. -/
def operandRow : CommandName → String × String
  | initConfig => ("[PATH]", "Destination [default: proxygen.toml]")
  | _ => ("<CATALOG>", "Type catalog (JSON)")

/-- The key by which the options at the same place of two lists are ordered. -/
def sortKey (o : OptionSpec) : String :=
  match o.letter with
  | some c => s!"{c}0"
  | none => o.name

/-- The options of a command in the order in which they are listed: the common ones and its own are taken
    side by side, and help stands last. -/
def listedOptions (c : CommandName) : List OptionSpec :=
  let own := c.ownOptions
  let common := commonOptions.filter (·.kind != .question)
  let places := List.range (max own.length common.length)
  places.flatMap (fun i => (own[i]?.toList ++ common[i]?.toList).mergeSort fun a b => sortKey a ≤ sortKey b) ++
    commonOptions.filter (·.kind == .question)

end CommandName

/-! ## The help of a topic -/

/-- What the command that gives help does. -/
def helpPurpose : String :=
  "Print this message or the help of the given subcommand(s)"

/-- The lines of the help of a topic. -/
def Topic.lines : Topic → List String
  | .program =>
    ["Boundary-safe proxy generator for interface-based host APIs", "",
      "Usage: proxygen [OPTIONS] <COMMAND>"] ++
      tableBlock "Commands" (CommandName.all.map (fun c => (c.text, c.purpose)) ++ [("help", helpPurpose)]) ++
      tableBlock "Options" (leadingOptions.map OptionSpec.row)
  | .command c =>
    [c.purpose, "", s!"Usage: proxygen {c.text} [OPTIONS] {c.operandForm}"] ++
      tableBlock "Arguments" [c.operandRow] ++
      tableBlock "Options" (c.listedOptions.map OptionSpec.row)
  | .help =>
    [helpPurpose, "", "Usage: proxygen help [COMMAND]"] ++
      tableBlock "Commands" (CommandName.all.map (fun c => (c.text, c.purpose)) ++ [("help", helpPurpose)])

/-- The help of a topic. -/
def Topic.text (t : Topic) : String :=
  String.join (t.lines.map (· ++ "\n"))

end BoundaryProxy.CommandLine
