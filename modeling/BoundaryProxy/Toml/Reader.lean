import BoundaryProxy.Document.Decoder
import BoundaryProxy.Toml.Scalar
import BoundaryProxy.Toml.Table

/-!
# `BoundaryProxy.Toml.Reader` — documents from TOML text

A TOML text is a list of statements: a pair of a key and a value, the header of a table, or the header of one
more element of an array of tables. The statements of one
header are put together before the next header is looked at.

Values may nest 79 deep and a dotted key may have 79 parts.
-/

namespace BoundaryProxy.Toml

/-- A statement of a TOML text. -/
inductive Statement where
  | pair (path : List String) (value : Document)
  | table (path : List String)
  | element (path : List String)
deriving Repr, Inhabited

/-- The number of levels that is one too many. -/
def nestingLimit : Nat :=
  80

/-! ## Space and comments -/

/-- The text without the blanks it begins with. -/
def skipBlanks (s : List Char) : List Char :=
  s.dropWhile isBlank

/-- The text without the comment it begins with, if it begins with one. -/
def skipComment (s : List Char) : List Char :=
  match s with
  | '#' :: rest => rest.dropWhile isPlain
  | s => s

/-- What follows the end of a line, where nothing but blanks and a comment may stand before it. -/
def readLineEnd (s : List Char) : Option (List Char) :=
  match skipComment (skipBlanks s) with
  | [] => some []
  | rest => lineBreak? rest

/-- The text without the blanks, comments and line breaks it begins with. -/
def skipLines (fuel : Nat) (s : List Char) : List Char :=
  match fuel with
  | 0 => s
  | fuel + 1 =>
    match lineBreak? (skipComment (skipBlanks s)) with
    | some rest => skipLines fuel rest
    | none => skipBlanks s

/-! ## Keys -/

/-- Whether a character may stand in a key without quotes. -/
def isBareKeyChar (c : Char) : Bool :=
  ('a' ≤ c && c ≤ 'z') || ('A' ≤ c && c ≤ 'Z') || isDigit c || c == '-' || c == '_'

/-- One part of a key. -/
def readSimpleKey (s : List Char) : Option (String × List Char) :=
  match s with
  | '"' :: _ => (readLineString s).map fun (text, rest) => (String.ofList text, rest)
  | '\'' :: _ => (readLineString s).map fun (text, rest) => (String.ofList text, rest)
  | s =>
    let name := s.takeWhile isBareKeyChar
    if name.isEmpty then none else some (String.ofList name, s.dropWhile isBareKeyChar)

/-- The parts of a key with the dots between them, of which at most `parts` are read. -/
def readKeyParts (parts : Nat) (s : List Char) : Option (List String × List Char) :=
  match parts with
  | 0 => none
  | parts + 1 => do
    let (name, rest) ← readSimpleKey (skipBlanks s)
    match skipBlanks rest with
    | '.' :: rest =>
      let (names, rest) ← readKeyParts parts rest
      return (name :: names, rest)
    | rest => return ([name], rest)

/-- A key and the blanks around it. -/
def readKey (s : List Char) : Option (List String × List Char) :=
  readKeyParts (nestingLimit - 1) s

/-! ## Values -/

/-- What stands before the rest of a text. -/
def before (s rest : List Char) : String :=
  String.ofList (s.take (s.length - rest.length))

/-- A value without brackets or braces. -/
def readPlainValue (s : List Char) : Option (Document × List Char) :=
  match s with
  | '"' :: _ => (readString s).map fun (text, rest) => (.ofString (String.ofList text), rest)
  | '\'' :: _ => (readString s).map fun (text, rest) => (.ofString (String.ofList text), rest)
  | 't' :: 'r' :: 'u' :: 'e' :: rest => some (.flag true, rest)
  | 'f' :: 'a' :: 'l' :: 's' :: 'e' :: rest => some (.flag false, rest)
  | s => (readScalar s).map fun rest => (.scalar (before s rest), rest)

mutual

/-- A value at a level of nesting. -/
def readValue (fuel level : Nat) (s : List Char) : Option (Document × List Char) :=
  match fuel with
  | 0 => none
  | fuel + 1 =>
    match s with
    | '[' :: rest => do
      if nestingLimit ≤ level + 1 then none
      let (items, rest) ← readItems fuel (level + 1) rest
      return (.list items, rest)
    | '\x7b' :: rest => do
      if nestingLimit ≤ level + 1 then none
      match skipBlanks rest with
      | '\x7d' :: rest => return (.record [], rest)
      | rest =>
        let (pairs, rest) ← readPairs fuel (level + 1) rest
        let table ← addPairs pairs []
        return (tableDocument table, rest)
    | s => readPlainValue s

/-- The items of an array up to the closing bracket. -/
def readItems (fuel level : Nat) (s : List Char) : Option (List Document × List Char) :=
  match fuel with
  | 0 => none
  | fuel + 1 =>
    match skipLines s.length s with
    | ']' :: rest => some ([], rest)
    | s => do
      let (item, rest) ← readValue fuel level s
      match skipLines rest.length rest with
      | ',' :: rest =>
        let (items, rest) ← readItems fuel level rest
        return (item :: items, rest)
      | ']' :: rest => return ([item], rest)
      | _ => none

/-- The pairs of an inline table up to the closing brace. -/
def readPairs (fuel level : Nat) (s : List Char) :
    Option (List (List String × Document) × List Char) :=
  match fuel with
  | 0 => none
  | fuel + 1 => do
    let (path, rest) ← readKey s
    let rest ← readChar '=' rest
    let (value, rest) ← readValue fuel level (skipBlanks rest)
    match skipBlanks rest with
    | ',' :: rest =>
      let (pairs, rest) ← readPairs fuel level rest
      return ((path, value) :: pairs, rest)
    | '\x7d' :: rest => return ([(path, value)], rest)
    | _ => none

end

/-! ## Statements -/

/-- One statement with the end of its line. -/
def readStatement (s : List Char) : Option (Statement × List Char) :=
  match s with
  | '[' :: '[' :: rest => do
    let (path, rest) ← readKey rest
    let rest ← readChar ']' (← readChar ']' rest)
    return (.element path, ← readLineEnd rest)
  | '[' :: rest => do
    let (path, rest) ← readKey rest
    return (.table path, ← readLineEnd (← readChar ']' rest))
  | s => do
    let (path, rest) ← readKey s
    let rest ← readChar '=' rest
    let (value, rest) ← readValue (2 * rest.length + 2) 0 (skipBlanks rest)
    return (.pair path value, ← readLineEnd rest)

/-- The statements of a text. -/
def readStatements (fuel : Nat) (s : List Char) : Option (List Statement) :=
  match fuel with
  | 0 => none
  | fuel + 1 =>
    match skipLines s.length s with
    | [] => some []
    | '#' :: rest => if (rest.dropWhile isPlain).isEmpty then some [] else none
    | s => do
      let (statement, rest) ← readStatement s
      return statement :: (← readStatements fuel rest)

/-! ## Documents -/

/-- The pairs at the start of a list of statements. -/
def leadingPairs : List Statement → List (List String × Document)
  | .pair path value :: rest => (path, value) :: leadingPairs rest
  | _ => []

/-- The sections that headers begin, added to a table one after another. A pair belongs to the last header
    before it. -/
def addSections (root : Table) : List Statement → Option Table
  | [] => some root
  | .pair _ _ :: rest => addSections root rest
  | .table path :: rest => do addSections (← addTable path (leadingPairs rest) root) rest
  | .element path :: rest => do addSections (← addElement path (leadingPairs rest) root) rest

/-- The text without the mark of byte order that it may begin with. -/
def dropByteOrderMark : List Char → List Char
  | '\uFEFF' :: rest => rest
  | s => s

/-- The document of a TOML text. -/
def read (s : String) : Option Document := do
  let s := dropByteOrderMark s.toList
  let statements ← readStatements (s.length + 1) s
  let root ← addPairs (leadingPairs statements) []
  return tableDocument (← addSections root statements)

/-- TOML's rules for records: surplus values are passed over, and an empty table or array stands behind the
    name of a variant. -/
def convention : Convention where
  allowsSurplus := true
  isEmptyContent
    | .record [] => true
    | .list [] => true
    | _ => false

end BoundaryProxy.Toml
