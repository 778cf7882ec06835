import BoundaryProxy.Shell.Token

/-!
# `BoundaryProxy.Shell.Quoting` — where in a word a character stands

How a character of a word is read depends on what it stands in: quotes, braces of a parameter, arithmetic. Each
of these may stand in another one, so a word is read with a stack of levels. What is read is a flat list of
atoms, from which the pieces of the word are built when it is complete.
-/

namespace BoundaryProxy.Shell

/-- What a level of a word is. -/
inductive Quoting where
  | plain
  | double
  | single
  | arithmetic
deriving Repr, DecidableEq

/-- A level of a word. -/
structure Level where
  quoting : Quoting
  /-- How many parameters in braces are being read on this level. -/
  braces : Nat := 0
  /-- Whether the level began with a parameter in braces, and ends with it. -/
  ofBrace : Bool := false
  /-- Whether backslashes are read as in double quotes. -/
  isDouble : Bool := false
  /-- Whether a double quote has been opened within the innermost braces. -/
  innerQuote : Bool := false
  /-- How many of the parameters in braces stand in double quotes. -/
  quotedBraces : Nat := 0
  /-- How many parentheses are open in an arithmetic expression. -/
  parens : Nat := 0

/-- The level of a word, or of the text of a here-document. -/
def Level.start (quoting : Quoting) : Level :=
  { quoting, isDouble := quoting == .double }

/-- An atom of a word. -/
inductive Atom where
  | char (c : Char) (escaped : Bool)
  | quote
  /-- A parameter without a word of its own. -/
  | param (name : String)
  | braceOpen (name : String) (use : ParamUse) (emptyIsMissing : Bool)
  | braceClose
  | output (body : Command)
  | arithmeticOpen
  | arithmeticClose

/-- What a character of a word means. -/
inductive CharRole where
  | plain
  /-- A sign of patterns or of paths, which means nothing else in quotes. -/
  | sign
  | newline
  | backslash
  | singleQuote
  | doubleQuote
  | endQuote
  | dollar
  | braceClose
  | backquote
  | parenOpen
  | parenClose
  /-- It ends a word. -/
  | divider
deriving Repr, DecidableEq

/-- What a character means on a level. -/
def Quoting.role (q : Quoting) (c : Char) : CharRole :=
  match q with
  | .single =>
    if c == '\n' then .newline
    else if c == '\'' then .endQuote
    else if "!*?[=~:/-]\\".contains c then .sign
    else .plain
  | .double =>
    match c with
    | '\n' => .newline
    | '\\' => .backslash
    | '"' => .endQuote
    | '\x60' => .backquote
    | '$' => .dollar
    | '\x7d' => .braceClose
    | c => if "!*?[=~:/-]".contains c then .sign else .plain
  | .arithmetic =>
    match c with
    | '\n' => .newline
    | '\\' => .backslash
    | '\x60' => .backquote
    | '$' => .dollar
    | '\x7d' => .braceClose
    | '(' => .parenOpen
    | ')' => .parenClose
    | _ => .plain
  | .plain =>
    match c with
    | '\n' => .newline
    | '\\' => .backslash
    | '\'' => .singleQuote
    | '"' => .doubleQuote
    | '\x60' => .backquote
    | '$' => .dollar
    | '\x7d' => .braceClose
    | c => if "<>;&|() \t".contains c then .divider else .plain

/-! ## Words from atoms -/

/-- A word with a character before it. -/
def consChar (c : Char) (escaped : Bool) : Word → Word
  | .text s e :: w => if e == escaped then .text (c :: s) e :: w else .text [c] escaped :: .text s e :: w
  | w => .text [c] escaped :: w

/-- The pieces of atoms up to where an outer part goes on, and the atoms from there on. -/
def piecesOf : Nat → List Atom → Word × List Atom
  | 0, atoms => ([], atoms)
  | _ + 1, [] => ([], [])
  | fuel + 1, atom :: atoms =>
    let onTop (make : Word → Word) : Word × List Atom :=
      let (w, rest) := piecesOf fuel atoms
      (make w, rest)
    let around (make : Word → Piece) : Word × List Atom :=
      let (inner, rest) := piecesOf fuel atoms
      let (w, rest) := piecesOf fuel rest
      (make inner :: w, rest)
    match atom with
    | .char c escaped => onTop (consChar c escaped)
    | .quote => onTop (.quote :: ·)
    | .param name => onTop (.param name .value false [] :: ·)
    | .output body => onTop (.output body :: ·)
    | .braceOpen name use emptyIsMissing => around (.param name use emptyIsMissing)
    | .arithmeticOpen => around .arithmetic
    | .braceClose => ([], atoms)
    | .arithmeticClose => ([], atoms)

/-- The word of atoms. -/
def wordOf (atoms : List Atom) : Word :=
  (piecesOf (2 * atoms.length + 1) atoms).1

/-- The characters of a word without its quotes; what is to be expanded stands for nothing. -/
def plainText : Word → List Char
  | [] => []
  | .text s _ :: w => s ++ plainText w
  | _ :: w => plainText w

/-- The text of a word in which nothing is quoted and nothing is to be expanded. -/
def bareText? : Word → Option String
  | [.text s false] => some (String.ofList s)
  | _ => none

end BoundaryProxy.Shell
