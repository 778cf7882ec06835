import BoundaryProxy.Text.Blank
import BoundaryProxy.Text.Numeral
import BoundaryProxy.Text.Utf8
import BoundaryProxy.TypeExpr.Basic

/-!
# `BoundaryProxy.TypeExpr.Parser` — reading types

The grammar, with blanks allowed before, between and after the tokens:

* a type is a name, then optionally `<`, types separated by `,` and `>`, then any number of `[` `]` pairs up
  to 255;
* a name is a run of letters, numerals, `_`, `.` and the backquote that neither starts nor ends with `.`.

Every reader returns the text it left over. A failure carries the text left over at the point of the flaw,
and the offset in the message is the length in bytes of what was read until then, so it lies on a boundary
between characters by construction.

The readers recurse on a bound for the nesting; `parse` gives them more than any text can use up.
-/

namespace BoundaryProxy.TypeExpr

open Text

/-- Why a text is no type. -/
inductive Flaw where
  | nameExpected
  | separatorExpected
  | bracketExpected
  | rankTooLarge
  | trailingCharacters
deriving Repr, DecidableEq

/-- What a flaw is called in messages. -/
def Flaw.text : Flaw → String
  | nameExpected => "expected a type name"
  | separatorExpected => "expected ',' or '>'"
  | bracketExpected => "expected ']'"
  | rankTooLarge => "array rank too large"
  | trailingCharacters => "unexpected trailing characters"

/-- A text that is no type: the text, the flaw and the bytes before it. -/
structure ParseError where
  source : String
  flaw : Flaw
  offset : Nat
deriving Repr, DecidableEq

/-- The message for a text that is no type. -/
def ParseError.message (e : ParseError) : String :=
  s!"Invalid type name '{e.source}': {e.flaw.text} at offset {e.offset}"

/-- A flaw and the text left over where it was met. -/
abbrev Stop := Flaw × List Char

/-! ## Names -/

/-- Whether a character may stand in a name; the backquote marks the number of a definition's parameters. -/
def isNameChar (c : Char) : Bool :=
  isAlphanumeric c || c == '_' || c == '.' || c == '\x60'

/-- Whether a run of name characters is a name. -/
def isName (run : List Char) : Bool :=
  !run.isEmpty && run.head? != some '.' && run.getLast? != some '.'

/-- Read a name. -/
def readName (s : List Char) : Except Stop (String × List Char) :=
  let run := (skipBlanks s).takeWhile isNameChar
  let rest := (skipBlanks s).dropWhile isNameChar
  if isName run then .ok (String.ofList run, rest) else .error (.nameExpected, rest)

/-! ## Brackets -/

/-- Read the pairs of brackets after a type that has `rank` of them already. -/
def readRank (fuel : Nat) (rank : Fin 256) (s : List Char) : Except Stop (Fin 256 × List Char) :=
  match fuel, skipBlanks s with
  | fuel + 1, '[' :: rest =>
    match skipBlanks rest with
    | ']' :: rest =>
      if h : rank.val + 1 < 256 then readRank fuel ⟨rank.val + 1, h⟩ rest
      else .error (.rankTooLarge, rest)
    | rest => .error (.bracketExpected, rest)
  | _, rest => .ok (rank, rest)

/-! ## Types -/

mutual

/-- Read one type. -/
def readType (fuel : Nat) (s : List Char) : Except Stop (TypeExpr × List Char) :=
  match fuel with
  | 0 => .error (.nameExpected, s)
  | fuel + 1 => do
    let (name, rest) ← readName s
    let (args, rest) ← match skipBlanks rest with
      | '<' :: rest => readArgs fuel rest
      | rest => .ok ([], rest)
    let (rank, rest) ← readRank rest.length 0 rest
    return (⟨name, args, rank⟩, rest)

/-- Read the arguments of a type up to the closing angle bracket. -/
def readArgs (fuel : Nat) (s : List Char) : Except Stop (List TypeExpr × List Char) :=
  match fuel with
  | 0 => .error (.nameExpected, s)
  | fuel + 1 => do
    let (arg, rest) ← readType fuel s
    match skipBlanks rest with
    | ',' :: rest =>
      let (args, rest) ← readArgs fuel rest
      return (arg :: args, rest)
    | '>' :: rest => return ([arg], rest)
    | rest => .error (.separatorExpected, rest)

end

/-- Read a text that is one type and nothing else. -/
def readWhole (s : List Char) : Except Stop TypeExpr := do
  let (t, rest) ← readType (2 * s.length + 2) s
  match skipBlanks rest with
  | [] => return t
  | rest => .error (.trailingCharacters, rest)

/-- The type a text names. -/
def parse (s : String) : Except ParseError TypeExpr :=
  match readWhole s.toList with
  | .ok t => .ok t
  | .error (flaw, rest) => .error ⟨s, flaw, byteLength s.toList - byteLength rest⟩

end BoundaryProxy.TypeExpr
