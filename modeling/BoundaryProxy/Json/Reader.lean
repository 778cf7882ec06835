import BoundaryProxy.Document.Decoder
import BoundaryProxy.Json.Literal

/-!
# `BoundaryProxy.Json.Reader` — documents from JSON text

Every reader returns the document it read and what follows it, or no rest at all if the text broke off in
that document; the break is then the last leaf of the document. `decode` decodes a text that is one document
with nothing but space around it.

The readers recurse on a bound for the nesting, and `read` gives them more than any text can use up.
-/

namespace BoundaryProxy.Json

/-- Whether a character may stand between tokens. -/
def isSpace (c : Char) : Bool :=
  c == ' ' || c == '\n' || c == '\r' || c == '\t'

/-- The text without the space it begins with. -/
def skipSpace (s : List Char) : List Char :=
  s.dropWhile isSpace

/-- The document of a text that is none from here on. -/
def torn : Document × Option (List Char) :=
  (.torn, none)

/-- Read a value that is a word or a number. -/
def readWord (s : List Char) : Document × Option (List Char) :=
  match s with
  | 'n' :: 'u' :: 'l' :: 'l' :: rest => (.null, some rest)
  | 't' :: 'r' :: 'u' :: 'e' :: rest => (.flag true, some rest)
  | 'f' :: 'a' :: 'l' :: 's' :: 'e' :: rest => (.flag false, some rest)
  | s =>
    match readNumber s with
    | some (literal, rest) => (.scalar literal, some rest)
    | none => torn

/-- Read the name of a field and the colon behind it. -/
def readName (s : List Char) : Option (Option String × List Char) :=
  match skipSpace s with
  | '"' :: rest =>
    match readString none rest with
    | some (name, rest) =>
      match skipSpace rest with
      | ':' :: rest => some (name.map String.ofList, rest)
      | _ => none
    | none => none
  | _ => none

mutual

/-- Read a value. -/
def readValue (fuel : Nat) (s : List Char) : Document × Option (List Char) :=
  match fuel with
  | 0 => torn
  | fuel + 1 =>
    match skipSpace s with
    | '"' :: rest =>
      match readString none rest with
      | some (text, rest) => (.text (text.map String.ofList), some rest)
      | none => torn
    | '[' :: rest =>
      match skipSpace rest with
      | ']' :: rest => (.list [], some rest)
      | rest =>
        let (items, rest) := readItems fuel rest
        (.list items, rest)
    | '\x7b' :: rest =>
      match skipSpace rest with
      | '\x7d' :: rest => (.record [], some rest)
      | rest =>
        let (fields, rest) := readFields fuel rest
        (.record fields, rest)
    | s => readWord s

/-- Read the items of a list up to the closing bracket. -/
def readItems (fuel : Nat) (s : List Char) : List Document × Option (List Char) :=
  match fuel with
  | 0 => ([.torn], none)
  | fuel + 1 =>
    match readValue fuel s with
    | (item, none) => ([item], none)
    | (item, some rest) =>
      match skipSpace rest with
      | ',' :: rest =>
        let (items, rest) := readItems fuel rest
        (item :: items, rest)
      | ']' :: rest => ([item], some rest)
      | _ => ([item, .torn], none)

/-- Read the fields of a record up to the closing brace. -/
def readFields (fuel : Nat) (s : List Char) : List (Option String × Document) × Option (List Char) :=
  match fuel with
  | 0 => ([(none, .torn)], none)
  | fuel + 1 =>
    match readName s with
    | none => ([(none, .torn)], none)
    | some (name, rest) =>
      match readValue fuel rest with
      | (value, none) => ([(name, value)], none)
      | (value, some rest) =>
        match skipSpace rest with
        | ',' :: rest =>
          let (fields, rest) := readFields fuel rest
          ((name, value) :: fields, rest)
        | '\x7d' :: rest => ([(name, value)], some rest)
        | _ => ([(name, value), (none, .torn)], none)

end

/-- The document a text begins with and what follows it. -/
def read (s : String) : Document × Option (List Char) :=
  readValue (2 * s.toList.length + 2) s.toList

/-- Whether nothing but space follows a document. -/
def isEnd (rest : Option (List Char)) : Bool :=
  (rest.map fun s => (skipSpace s).isEmpty).getD false

/-- Decode a text that is one document. What follows the document is looked at last. -/
def decode {α : Type} (value : Decoder α) (s : String) : Except Fault α :=
  let (document, rest) := read s
  match value document with
  | .error fault => .error fault
  | .ok a => if isEnd rest then .ok a else .error .malformed

/-- JSON's rules for records: no surplus values, and `null` behind the name of a variant. -/
def convention : Convention where
  allowsSurplus := false
  isEmptyContent
    | .null => true
    | _ => false

end BoundaryProxy.Json
