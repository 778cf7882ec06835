import BoundaryProxy.Text.CharClass

/-!
# `BoundaryProxy.Text.Blank` — white space and what is trimmed

The blank characters are those of Unicode's `White_Space` property. They separate the tokens of a type
name, a text of blanks alone counts as empty, and a line of compiler output is read without the blanks at
its ends.
-/

namespace BoundaryProxy.Text

/-- The characters with the `White_Space` property. -/
def blanks : CharClass :=
  ⟨[(0x9, 0xD), (0x20, 0x20), (0x85, 0x85), (0xA0, 0xA0), (0x1680, 0x1680), (0x2000, 0x200A),
    (0x2028, 0x2029), (0x202F, 0x202F), (0x205F, 0x205F), (0x3000, 0x3000)]⟩

/-- Whether a character is white space. -/
def isBlank (c : Char) : Bool :=
  blanks.has c

/-- The text without the blanks it begins with. -/
def skipBlanks (s : List Char) : List Char :=
  s.dropWhile isBlank

/-- The text without the blanks at either end. -/
def trim (s : List Char) : List Char :=
  (skipBlanks (skipBlanks s).reverse).reverse

/-- Whether a text holds nothing but blanks. -/
def isBlankText (s : String) : Bool :=
  s.toList.all isBlank

/-- The lines of a text without the blanks at their ends; lines that hold nothing else are left out. -/
def trimmedLines (s : List Char) : List String :=
  ((s.splitOn '\n').map trim).filterMap fun line =>
    if line.isEmpty then none else some (String.ofList line)

theorem skipBlanks_suffix (s : List Char) : skipBlanks s <:+ s :=
  List.dropWhile_suffix _

end BoundaryProxy.Text
