/-!
# `BoundaryProxy.Document.Basic` — structured text as a tree

The tree that JSON and TOML texts describe. Objects keep the order of their fields and may repeat a name.

A reader never fails: where a text stops being a document, the tree has a `torn` leaf and nothing after it.
What decodes the tree meets faults in the order of the text, so a fault of meaning that stands before the
point where the text breaks is the one that is reported. For the same reason a string or field name whose
escapes name no character is only marked as such: it is a fault where its meaning is asked for.
-/

namespace BoundaryProxy

/-- A structured text. -/
inductive Document where
  | null
  | flag (b : Bool)
  /-- A number or a date, as it was written. -/
  | scalar (literal : String)
  /-- A string; `none` if an escape in it names no character. -/
  | text (s : Option String)
  | list (items : List Document)
  | record (fields : List (Option String × Document))
  /-- The point at which a text stops being a document. -/
  | torn
deriving Repr, Inhabited

namespace Document

/-- The document of a string. -/
def ofString (s : String) : Document :=
  .text (some s)

/-- The document of fields with their names. -/
def ofFields (fields : List (String × Document)) : Document :=
  .record (fields.map fun (name, value) => (some name, value))

mutual

/-- Whether the text of a document was read to its end. -/
def isWhole : Document → Bool
  | .torn => false
  | .list items => areWhole items
  | .record fields => fieldsAreWhole fields
  | _ => true

/-- Whether the texts of several documents were read to their ends. -/
def areWhole : List Document → Bool
  | [] => true
  | d :: rest => isWhole d && areWhole rest

/-- Whether the texts of all fields were read to their ends. -/
def fieldsAreWhole : List (Option String × Document) → Bool
  | [] => true
  | (_, d) :: rest => isWhole d && fieldsAreWhole rest

end

end Document

end BoundaryProxy
