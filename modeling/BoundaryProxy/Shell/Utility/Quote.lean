/-!
# `BoundaryProxy.Shell.Utility.Quote` — names in the messages of programs

A name in a message stands in quotes, in such a way that a shell could read it again. What cannot be printed is
given by escapes; only the characters of ASCII can be printed. Texts are byte texts.
-/

namespace BoundaryProxy.Shell

/-- Whether a character is shown by an escape. -/
def isHidden (c : Char) : Bool :=
  c.toNat < 32 || 127 ≤ c.toNat

/-- What stands behind the backslash of the escape for a character: a letter, or three octal digits. -/
def escapeTail (c : Char) : List Char :=
  match c.toNat with
  | 7 => ['a']
  | 8 => ['b']
  | 9 => ['t']
  | 10 => ['n']
  | 11 => ['v']
  | 12 => ['f']
  | 13 => ['r']
  | n => [n / 64, n / 8 % 8, n % 8].map Nat.digitChar

/-- An argument in quotes, in which backslashes stand before such quotes and in escapes. -/
def quotedArgument (s : String) : String :=
  let body := s.toList.flatMap fun c =>
    if isHidden c then '\\' :: escapeTail c
    else if c == '\'' || c == '\\' then ['\\', c]
    else [c]
  String.ofList ('\'' :: body ++ ['\''])

/-! ## Names that a shell could read -/

/-- The inside of single quotes, and whether escapes are open at its end. Escapes stand in quotes of their own,
    which are opened before the first one of a run and closed before what comes after it. -/
def quotedBody : Bool → List Char → List Char × Bool
  | isOpen, [] => ([], isOpen)
  | isOpen, c :: s =>
    let onTop (text : String) (tail : List Char) (opens : Bool) : List Char × Bool :=
      let (rest, atEnd) := quotedBody opens s
      (text.toList ++ tail ++ rest, atEnd)
    if c == '\'' then onTop "'\\''" [] false
    else if isHidden c then onTop (if isOpen then "\\" else "'$'\\") (escapeTail c) true
    else onTop (if isOpen then "''" else "") [c] false

/-- Whether a name means the same between double quotes as between single quotes, but for apostrophes. -/
def fitsDoubleQuotes (s : List Char) : Bool :=
  let isPlain (c : Char) : Bool := (c.isAlphanum && !isHidden c) || "%+,-./:]_ @'".toList.contains c
  match s with
  | [] => true
  | c :: rest => (isPlain c || c == '#' || c == '~') && rest.all isPlain

/-- A name in quotes. A name with an apostrophe is looked through twice, and what is open at the end of the first
    time stays open at the start of the second one. -/
def quotedPath (s : String) : String :=
  let cs := s.toList
  if !cs.contains '\'' then "'" ++ String.ofList (quotedBody false cs).1 ++ "'"
  else if fitsDoubleQuotes cs then "\"" ++ s ++ "\""
  else "'" ++ String.ofList (quotedBody (quotedBody false cs).2 cs).1 ++ "'"

/-- Whether a shell reads a name as it stands, and it has no colon. -/
def isBare (s : List Char) : Bool :=
  let needsQuotes (c : Char) : Bool := isHidden c || "\\': !\"$&()*;<=>?[^\x60|".toList.contains c
  match s with
  | [] => false
  | c :: rest =>
    !s.any needsQuotes && c != '#' && c != '~' && !(rest.isEmpty && (c == '\x7b' || c == '\x7d'))

/-- A name that is put in quotes only if it has to be. -/
def plainPath (s : String) : String :=
  if isBare s.toList then s else quotedPath s

end BoundaryProxy.Shell
