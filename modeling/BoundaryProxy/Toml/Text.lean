/-!
# `BoundaryProxy.Toml.Text` — TOML strings

TOML has four ways to write a string: on one line or on several, with escapes or literally. `writeString`
takes the first way that shows the text as it is: one line with double quotes, one line with single quotes,
several lines with double quotes, several with single quotes. A text that no way can show as it is gets
escapes, on several lines if it has a line break.
-/

namespace BoundaryProxy.Toml

/-! ## Writing -/

/-- The length of the longest run of a character in a text, where the text follows a run of `before`. -/
def longestRun (c : Char) (before : Nat) : List Char → Nat
  | [] => before
  | d :: rest => if d = c then longestRun c (before + 1) rest else max before (longestRun c 0 rest)

/-- Whether a character can be written only as an escape. -/
def needsEscape (c : Char) : Bool :=
  (c.toNat < 0x20 && c != '\t' && c != '\n') || c.toNat == 0x7F

/-- An upper-case hexadecimal digit. -/
def hexDigit (n : Nat) : Char :=
  "0123456789ABCDEF".toList.getD n '0'

/-- The escape of a control character by its number. -/
def numberEscape (c : Char) : List Char :=
  ['\\', 'u', '0', '0', hexDigit (c.toNat / 16), hexDigit (c.toNat % 16)]

/-- The text of a string with escapes. Line breaks are kept if the string is on several lines; a double quote
    is escaped where the run of them would get longer than `quotes`, and `run` of them stand just before. -/
def escapeText (severalLines : Bool) (quotes run : Nat) : List Char → List Char
  | [] => []
  | '"' :: rest =>
    if quotes ≤ run then '\\' :: '"' :: escapeText severalLines quotes 0 rest
    else '"' :: escapeText severalLines quotes (run + 1) rest
  | c :: rest =>
    let shown := match c with
      | '\x08' => ['\\', 'b']
      | '\t' => ['\\', 't']
      | '\n' => if severalLines then ['\n'] else ['\\', 'n']
      | '\x0c' => ['\\', 'f']
      | '\r' => ['\\', 'r']
      | '\\' => ['\\', '\\']
      | c => if needsEscape c then numberEscape c else [c]
    shown ++ escapeText severalLines quotes 0 rest

/-- The ways to write a string. -/
inductive StringStyle where
  | basic
  | literal
  | basicLines
  | literalLines
deriving Repr, DecidableEq

/-- The way in which a text is written. -/
def StringStyle.of (s : List Char) : StringStyle :=
  let hidden := s.any needsEscape
  let backslash := s.contains '\\'
  let lines := s.contains '\n'
  if !hidden && !backslash && !s.contains '"' && !lines then basic
  else if !hidden && !s.contains '\'' && !lines then literal
  else if !hidden && !backslash && longestRun '"' 0 s ≤ 2 then basicLines
  else if !hidden && longestRun '\'' 0 s ≤ 2 then literalLines
  else if lines then basicLines
  else basic

/-- The line break that the opening quotes of several lines take up, put there if the text has one. -/
def openingBreak (s : List Char) : List Char :=
  if s.contains '\n' then ['\n'] else []

/-- A text written in a given way. -/
def writeIn (style : StringStyle) (s : List Char) : List Char :=
  match style with
  | .basic => ['"'] ++ escapeText false 0 0 s ++ ['"']
  | .literal => ['\''] ++ s ++ ['\'']
  | .basicLines => ['"', '"', '"'] ++ openingBreak s ++ escapeText true 2 0 s ++ ['"', '"', '"']
  | .literalLines => ['\'', '\'', '\''] ++ openingBreak s ++ s ++ ['\'', '\'', '\'']

/-- A text written as a string. -/
def writeString (s : String) : String :=
  String.ofList (writeIn (.of s.toList) s.toList)

/-! ## Reading

Each reader starts behind the opening quotes and returns the text and what follows the closing ones. -/

/-- Whether a character may stand in a text as it is, line breaks apart. -/
def isPlain (c : Char) : Bool :=
  (0x20 ≤ c.toNat && c.toNat != 0x7F) || c == '\t'

/-- Whether a character is a blank within a line. -/
def isBlank (c : Char) : Bool :=
  c == ' ' || c == '\t'

/-- What follows a line break at the start of a text. -/
def lineBreak? : List Char → Option (List Char)
  | '\n' :: rest => some rest
  | '\r' :: '\n' :: rest => some rest
  | _ => none

/-- A character in front of a text that was read. -/
def addChar (c : Char) (r : List Char × List Char) : List Char × List Char :=
  (c :: r.1, r.2)

/-- The value of a hexadecimal digit. -/
def hexValue (c : Char) : Option Nat :=
  if '0' ≤ c ∧ c ≤ '9' then some (c.toNat - '0'.toNat)
  else if 'a' ≤ c ∧ c ≤ 'f' then some (c.toNat - 'a'.toNat + 10)
  else if 'A' ≤ c ∧ c ≤ 'F' then some (c.toNat - 'A'.toNat + 10)
  else none

/-- The character whose number is given by hexadecimal digits. -/
def numberedChar (digits : List Char) : Option Char := do
  let n ← digits.foldlM (fun n c => (hexValue c).map (n * 16 + ·)) 0
  if h : n.isValidChar then some (Char.ofNatAux n h) else none

/-- The character of a one-letter escape. -/
def shortEscape : Char → Option Char
  | 'b' => some '\x08'
  | 't' => some '\t'
  | 'n' => some '\n'
  | 'f' => some '\x0c'
  | 'r' => some '\r'
  | '"' => some '"'
  | '\\' => some '\\'
  | _ => none

/-- Read a string with escapes on one line. -/
def readBasic : List Char → Option (List Char × List Char)
  | [] => none
  | '"' :: rest => some ([], rest)
  | '\\' :: 'u' :: a :: b :: c :: d :: rest => do
    return addChar (← numberedChar [a, b, c, d]) (← readBasic rest)
  | '\\' :: 'U' :: a :: b :: c :: d :: e :: f :: g :: h :: rest => do
    return addChar (← numberedChar [a, b, c, d, e, f, g, h]) (← readBasic rest)
  | '\\' :: c :: rest => do
    return addChar (← shortEscape c) (← readBasic rest)
  | c :: rest => if isPlain c then (readBasic rest).map (addChar c) else none

/-- Read a literal string on one line. -/
def readLiteral : List Char → Option (List Char × List Char)
  | [] => none
  | '\'' :: rest => some ([], rest)
  | c :: rest => if isPlain c then (readLiteral rest).map (addChar c) else none

/-- Whether a backslash before this text joins the line with the next one. -/
def joinsLines (s : List Char) : Bool :=
  (lineBreak? (s.dropWhile isBlank)).isSome

/-- Read a string with escapes on several lines. While lines are joined, blanks and line breaks are passed
    over. One or two quotes may stand right before the closing ones. -/
def readBasicLines : Bool → List Char → Option (List Char × List Char)
  | _, [] => none
  | _, '"' :: '"' :: '"' :: '"' :: '"' :: rest => some (['"', '"'], rest)
  | _, '"' :: '"' :: '"' :: '"' :: rest => some (['"'], rest)
  | _, '"' :: '"' :: '"' :: rest => some ([], rest)
  | _, '"' :: rest => (readBasicLines false rest).map (addChar '"')
  | _, '\\' :: 'u' :: a :: b :: c :: d :: rest => do
    return addChar (← numberedChar [a, b, c, d]) (← readBasicLines false rest)
  | _, '\\' :: 'U' :: a :: b :: c :: d :: e :: f :: g :: h :: rest => do
    return addChar (← numberedChar [a, b, c, d, e, f, g, h]) (← readBasicLines false rest)
  | _, '\\' :: c :: rest =>
    match shortEscape c with
    | some c => (readBasicLines false rest).map (addChar c)
    | none => if joinsLines (c :: rest) then readBasicLines true (c :: rest) else none
  | joining, '\r' :: '\n' :: rest =>
    if joining then readBasicLines true rest else (readBasicLines false rest).map (addChar '\n')
  | joining, c :: rest =>
    if joining && (isBlank c || c == '\n') then readBasicLines true rest
    else if isPlain c || c == '\n' then (readBasicLines false rest).map (addChar c)
    else none

/-- Read a literal string on several lines. One or two quotes may stand right before the closing ones. -/
def readLiteralLines : List Char → Option (List Char × List Char)
  | [] => none
  | '\'' :: '\'' :: '\'' :: '\'' :: '\'' :: rest => some (['\'', '\''], rest)
  | '\'' :: '\'' :: '\'' :: '\'' :: rest => some (['\''], rest)
  | '\'' :: '\'' :: '\'' :: rest => some ([], rest)
  | '\r' :: '\n' :: rest => (readLiteralLines rest).map (addChar '\n')
  | c :: rest => if isPlain c || c == '\n' then (readLiteralLines rest).map (addChar c) else none

/-- A text without the line break it begins with. -/
def dropOpeningBreak (s : List Char) : List Char :=
  (lineBreak? s).getD s

/-- Read a string written on one line from its opening quote on. -/
def readLineString : List Char → Option (List Char × List Char)
  | '"' :: rest => readBasic rest
  | '\'' :: rest => readLiteral rest
  | _ => none

/-- Read a string from its opening quotes on. -/
def readString : List Char → Option (List Char × List Char)
  | '"' :: '"' :: '"' :: rest => readBasicLines false (dropOpeningBreak rest)
  | '\'' :: '\'' :: '\'' :: rest => readLiteralLines (dropOpeningBreak rest)
  | s => readLineString s

end BoundaryProxy.Toml
