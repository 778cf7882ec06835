import BoundaryProxy.Shell.Syntax

/-!
# `BoundaryProxy.Shell.Token` — the tokens of a script, and how far it has been read

A `Cursor` is what is left of a script together with all that reading it needs to know: the token that was
read last and may be read again, and the here-documents that were announced but whose text has not been reached. `Reader` is a step of reading.
-/

namespace BoundaryProxy.Shell

/-- Why a text is no script, and in which line that shows. -/
structure SyntaxFlaw where
  line : Nat
  reason : String
deriving Repr, DecidableEq

/-- A token. What a word or a redirection says is kept in the cursor. -/
inductive Token where
  | endOfFile
  | newline
  | redirection
  | word
  | semicolon
  | ampersand
  | both
  | either
  | bar
  | parenOpen
  | parenClose
  /-- The two semicolons after an arm. -/
  | armEnd
  | keyword (name : String)
deriving Repr, DecidableEq

namespace Token

/-- The words that are keywords where a command may begin. -/
def keywords : List String :=
  ["!", "case", "do", "done", "elif", "else", "esac", "fi", "for", "if", "in", "then", "until", "while",
    "\x7b", "\x7d"]

/-- A token in a complaint. -/
def text : Token → String
  | endOfFile => "end of file"
  | newline => "newline"
  | redirection => "redirection"
  | word => "word"
  | semicolon => "\";\""
  | ampersand => "\"&\""
  | both => "\"&&\""
  | either => "\"||\""
  | bar => "\"|\""
  | parenOpen => "\"(\""
  | parenClose => "\")\""
  | armEnd => "\";;\""
  | keyword name => s!"\"{name}\""

/-- Whether a list of commands ends before a token. -/
def endsList : Token → Bool
  | endOfFile => true
  | parenClose => true
  | armEnd => true
  | keyword name => ["do", "done", "elif", "else", "esac", "fi", "then", "\x7d"].contains name
  | _ => false

end Token

/-- What is looked for when a token is read. -/
structure Checks where
  /-- Newlines are skipped. -/
  newlines : Bool := false
  keywords : Bool := false
  /-- A dollar sign stands for itself. -/
  literal : Bool := false

/-- What may stand where a command begins. -/
def Checks.command : Checks :=
  { keywords := true }

/-- What may stand where a command begins, on a line further on too. -/
def Checks.anyLine : Checks :=
  { newlines := true, keywords := true }

/-- A here-document that was announced. -/
structure Announced where
  number : Nat
  /-- The line that ends it. -/
  mark : List Char
  dropsTabs : Bool
  expands : Bool

/-- What the redirection that was read last does, up to its target. -/
inductive RedirectHead where
  | file (descriptor : Nat) (mode : OpenMode)
  | duplicate (descriptor : Nat)
  | document (descriptor : Nat) (dropsTabs : Bool)

/-- How far a script has been read. -/
structure Cursor where
  text : List Char
  /-- Whether the shell reads its commands from there; else it is a text within what it has read. -/
  isScript : Bool := false
  line : Nat := 1
  token : Token := .endOfFile
  /-- Whether the token is to be read again. -/
  again : Bool := false
  checks : Checks := {}
  /-- The word that was read last, and whether anything in it was quoted. -/
  word : Word := []
  quoted : Bool := false
  redirect : RedirectHead := .duplicate 0
  announced : List Announced := []
  /-- The texts of the here-documents by number. -/
  documents : List (Nat × Word) := []
  /-- How many here-documents there have been. -/
  count : Nat := 0

/-- A step of reading. -/
abbrev Reader := EStateM SyntaxFlaw Cursor

namespace Reader

/-- Give up. -/
def refuse {α : Type} (reason : String) : Reader α := do
  throw ⟨(← get).line, reason⟩

/-- Refuse the token that was read last; another one may have been the only one possible. -/
def unexpected {α : Type} (wanted : Option Token := none) : Reader α := do
  let found := (← get).token.text
  match wanted with
  | some t => refuse s!"{found} unexpected (expecting {t.text})"
  | none => refuse s!"{found} unexpected"

/-! ## Characters -/

/-- The next character. -/
def peek : Reader (Option Char) := do
  return (← get).text.head?

/-- Read the next character. -/
def advance : Reader Unit :=
  modify fun s =>
    match s.text with
    | [] => s
    | c :: text => { s with text, line := if c == '\n' then s.line + 1 else s.line }

/-- Read a character. -/
def next : Reader (Option Char) := do
  let c ← peek
  advance
  return c

/-- Read a character within the head of a parameter in braces. A newline does not count as one there. -/
def nextInHead : Reader (Option Char) := do
  let line := (← get).line
  let c ← next
  modify fun s => { s with line }
  return c

/-- A text without the backslashes and newlines at its start that join lines, and how many lines they join. -/
def withoutJoins : List Char → Nat × List Char
  | '\\' :: '\n' :: r =>
    let (n, s) := withoutJoins r
    (n + 1, s)
  | s => (0, s)

/-- Skip what joins lines. -/
def skipJoins : Reader Unit :=
  modify fun s =>
    match s.text with
    | '\\' :: '\n' :: _ =>
      let (n, text) := withoutJoins s.text
      { s with text, line := s.line + n }
    | _ => s

/-- The next character after what joins lines. -/
def peekJoined : Reader (Option Char) := do
  skipJoins
  peek

/-- Read a character after what joins lines. -/
def nextJoined : Reader (Option Char) := do
  skipJoins
  next

/-- Read a character if it is the given one. -/
def skipIf (c : Char) : Reader Bool := do
  if (← peekJoined) == some c then
    advance
    return true
  else return false

/-! ## Lines of here-documents -/

/-- Whether the line that begins here ends a here-document; then it is skipped. Tabs that do not count are
    skipped in any case. -/
def skipMark (mark : List Char) (dropsTabs : Bool) : Reader Bool := do
  let s ← get
  let line := if dropsTabs then s.text.dropWhile (· == '\t') else s.text
  let rest := line.drop mark.length
  if mark.isPrefixOf line && (rest.isEmpty || rest.head? == some '\n') then
    set { s with text := rest.drop 1, line := if rest.isEmpty then s.line else s.line + 1 }
    return true
  else
    set { s with text := line }
    return false

end Reader

end BoundaryProxy.Shell
