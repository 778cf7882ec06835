/-!
# `BoundaryProxy.Shell.Syntax` — shell scripts as trees

The shell command language: simple commands with assignments and redirections, pipelines, lists, conditions,
loops, functions, and words with all their expansions.

Quoting is kept in words as it is written: a quote mark is a piece of its own, since what is quoted decides
how the pieces between two marks are expanded.
-/

namespace BoundaryProxy.Shell

/-- What a word takes from a parameter. -/
inductive ParamUse where
  | value
  | length
  /-- A word in place of a missing value. -/
  | fallback
  /-- A word in place of a missing value, which the parameter keeps. -/
  | assign
  /-- A value that must be there. -/
  | require
  /-- A word in place of a value that is there. -/
  | replace
  /-- The value without what a pattern matches at its start. -/
  | dropStart (longest : Bool)
  /-- The value without what a pattern matches at its end. -/
  | dropEnd (longest : Bool)
  /-- Something in braces that is no expansion. -/
  | malformed
deriving Repr, DecidableEq

/-- How a redirection opens its file. -/
inductive OpenMode where
  | input
  | output
  /-- Output to a file even where files must not be overwritten. -/
  | overwrite
  | append
  | inputOutput
deriving Repr, DecidableEq

mutual

/-- A piece of a word. -/
inductive Piece where
  /-- Characters as they stand; escaped ones have lost all other meaning. -/
  | text (s : List Char) (escaped : Bool)
  /-- A quote: what is between two of them is quoted. -/
  | quote
  /-- A parameter; an empty value may count as missing. -/
  | param (name : String) (use : ParamUse) (emptyIsMissing : Bool) (word : List Piece)
  /-- The output of a command. -/
  | output (body : Command)
  /-- The value of an arithmetic expression. -/
  | arithmetic (body : List Piece)

/-- A redirection of a descriptor. -/
inductive Redirect where
  | file (descriptor : Nat) (mode : OpenMode) (target : List Piece)
  /-- Make the descriptor mean what another one means, or nothing. -/
  | duplicate (descriptor : Nat) (source : List Piece)
  /-- Read from a here-document. Its text stands after the line of the redirection, so it is known by number. -/
  | document (descriptor : Nat) (number : Nat) (expands : Bool)

/-- A command. -/
inductive Command where
  /-- No command at all. -/
  | nothing
  | simple (line : Nat) (assigns : List (List Piece)) (words : List (List Piece)) (redirects : List Redirect)
  | redirected (line : Nat) (body : Command) (redirects : List Redirect)
  | negate (body : Command)
  /-- Commands of which each reads what the one before it writes. -/
  | pipe (stages : List Command)
  /-- A command that is not waited for. -/
  | background (line : Nat) (body : Command) (redirects : List Redirect)
  /-- The right one only if the left one succeeds. -/
  | both (left right : Command)
  /-- The right one only if the left one fails. -/
  | either (left right : Command)
  | sequence (first next : Command)
  | subshell (line : Nat) (body : Command) (redirects : List Redirect)
  | choose (condition body otherwise : Command)
  | loop (whileTrue : Bool) (condition body : Command)
  /-- Once for each word. -/
  | each (line : Nat) (name : String) (words : List (List Piece)) (body : Command)
  /-- The first arm with a pattern that matches the word. -/
  | select (line : Nat) (word : List Piece) (arms : List (List (List Piece) × Command))
  /-- Give a command a name. -/
  | define (line : Nat) (name : String) (body : Command)

end

/-- A word. -/
abbrev Word := List Piece

instance : Inhabited Command := ⟨.nothing⟩

/-- Whether a character may begin a name. -/
def isNameStart (c : Char) : Bool :=
  c.isAlpha || c == '_'

/-- Whether a character may stand in a name. -/
def isNameChar (c : Char) : Bool :=
  c.isAlphanum || c == '_'

/-- Whether a text is a name. -/
def isName : List Char → Bool
  | [] => false
  | c :: r => isNameStart c && r.all isNameChar

/-- Whether a character names a parameter by itself. -/
def isSpecialParam (c : Char) : Bool :=
  c.isDigit || "!#$*-?@".contains c

/-- A name and what stands after an equals sign behind it. -/
def splitAssignment (s : List Char) : Option (List Char × List Char) :=
  let name := s.takeWhile isNameChar
  match s.drop name.length with
  | '=' :: value => if isName name then some (name, value) else none
  | _ => none

/-- Whether a word assigns to a variable: it begins with a name and an equals sign, neither of them quoted. -/
def isAssignment : Word → Bool
  | .text s false :: _ => (splitAssignment s).isSome
  | _ => false

end BoundaryProxy.Shell
