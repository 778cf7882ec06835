import BoundaryProxy.Document.Basic
import BoundaryProxy.Json.Literal

/-!
# `BoundaryProxy.Json.Printer` — documents as JSON text

The long form: every item of a list and every field of a record on a line of its own, indented by two spaces
for each level, and `: ` between the name of a field and its value. Empty lists and records stay on the line.
-/

namespace BoundaryProxy.Json

/-- A new line at a level of nesting. -/
def newline (level : Nat) : String :=
  "\n" ++ String.join (List.replicate level "  ")

mutual

/-- A document at a level of nesting. A string without a meaning is written as a lone unit, which has none
    either. -/
def prettyAt (level : Nat) : Document → String
  | .null => "null"
  | .flag true => "true"
  | .flag false => "false"
  | .scalar literal => literal
  | .text (some s) => quote s
  | .text none => "\"\\ud800\""
  | .list [] => "[]"
  | .list (d :: rest) =>
    "[" ++ newline (level + 1) ++ prettyAt (level + 1) d ++ prettyItems (level + 1) rest ++
      newline level ++ "]"
  | .record [] => "\x7b\x7d"
  | .record ((name, d) :: rest) =>
    "\x7b" ++ newline (level + 1) ++ prettyName name ++ prettyAt (level + 1) d ++
      prettyFields (level + 1) rest ++ newline level ++ "\x7d"
  | .torn => ""

/-- The items after the first. -/
def prettyItems (level : Nat) : List Document → String
  | [] => ""
  | d :: rest => "," ++ newline level ++ prettyAt level d ++ prettyItems level rest

/-- The fields after the first. -/
def prettyFields (level : Nat) : List (Option String × Document) → String
  | [] => ""
  | (name, d) :: rest =>
    "," ++ newline level ++ prettyName name ++ prettyAt level d ++ prettyFields level rest

/-- The name of a field. -/
def prettyName : Option String → String
  | some name => quote name ++ ": "
  | none => "\"\\ud800\": "

end

/-- The long form of a document. -/
def pretty (d : Document) : String :=
  prettyAt 0 d

end BoundaryProxy.Json
