/-!
# `BoundaryProxy.Text.CharClass` — sets of characters as ranges of code points

A class of characters (letters, numerals, blanks) is a standard's table: closed ranges of code points in
ascending order. `CharClass.has` walks the table and stops at the first range beyond the character, so a
character of the first block costs a step or two however long the table is.
-/

namespace BoundaryProxy.Text

/-- A class of characters: the closed ranges of code points it consists of, in ascending order. -/
structure CharClass where
  ranges : List (Nat × Nat)

namespace CharClass

/-- Whether a code point lies in one of the ascending ranges. -/
def covers : List (Nat × Nat) → Nat → Bool
  | [], _ => false
  | (first, last) :: rest, n => if n < first then false else n ≤ last || covers rest n

/-- Whether the class has the character. -/
def has (k : CharClass) (c : Char) : Bool :=
  covers k.ranges c.toNat

end CharClass

end BoundaryProxy.Text
