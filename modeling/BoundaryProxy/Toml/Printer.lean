import BoundaryProxy.Document.Basic
import BoundaryProxy.Toml.Text

/-!
# `BoundaryProxy.Toml.Printer` — documents as TOML text

A record is written as one pair to a line, and after them an array of tables for every field that is a list
of records. A list of one string stays on its line; a longer one has a line for each item.
-/

namespace BoundaryProxy.Toml

/-- A value that stands behind an equals sign. -/
def valueText : Document → String
  | .text (some s) => writeString s
  | .flag true => "true"
  | .flag false => "false"
  | .scalar literal => literal
  | .list [] => "[]"
  | .list [.text (some s)] => "[" ++ writeString s ++ "]"
  | .list items => "[\n" ++ String.join (items.map itemLine) ++ "]"
  | _ => ""
where
  /-- An item on a line of its own. -/
  itemLine : Document → String
    | .text (some s) => "    " ++ writeString s ++ ",\n"
    | _ => ""

/-- A pair on a line of its own. -/
def pairLine (key : String) (value : Document) : String :=
  key ++ " = " ++ valueText value ++ "\n"

/-- A record whose values are neither records nor lists of records. -/
def pairLines (fields : List (Option String × Document)) : String :=
  String.join (fields.map fun (key, value) => pairLine (key.getD "") value)

/-- One element of an array of tables, behind an empty line. -/
def elementText (key : String) : Document → String
  | .record fields => "\n[[" ++ key ++ "]]\n" ++ pairLines fields
  | _ => ""

/-- Whether a value is written as an array of tables. -/
def isElements : Document → Bool
  | .list (.record _ :: _) => true
  | _ => false

/-- The elements of an array of tables. -/
def elementsText (key : String) : Document → String
  | .list items => String.join (items.map (elementText key))
  | _ => ""

/-- The text of a record: its pairs, then its arrays of tables. -/
def pretty : Document → String
  | .record fields =>
    pairLines (fields.filter fun field => !isElements field.2) ++
      String.join ((fields.filter fun field => isElements field.2).map fun (key, value) =>
        elementsText (key.getD "") value)
  | _ => ""

end BoundaryProxy.Toml
