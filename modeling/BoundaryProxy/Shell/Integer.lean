/-!
# `BoundaryProxy.Shell.Integer` — whole numbers in texts

Numbers are words of 64 bits: what does not fit wraps around when it is computed, and is cut off at the ends
of the range when it is read. A text may begin with a number and go on with something else, and where it goes
on decides whether it counts.
-/

namespace BoundaryProxy.Shell

/-- The least number. -/
def leastInteger : Int := -9223372036854775808

/-- The greatest number. -/
def greatestInteger : Int := 9223372036854775807

/-- A number in the range of words. -/
def wrapped (n : Int) : Int :=
  (n + 9223372036854775808) % 18446744073709551616 - 9223372036854775808

/-- A number as a word without a sign. -/
def unsignedWord (n : Int) : Nat :=
  (n % 18446744073709551616).toNat

/-- The value of a digit in any base. -/
def digitValue? (c : Char) : Option Nat :=
  if c.isDigit then some (c.toNat - '0'.toNat)
  else if c.isLower then some (c.toNat - 'a'.toNat + 10)
  else if c.isUpper then some (c.toNat - 'A'.toNat + 10)
  else none

/-- Whether a character is a digit in a base. -/
def isDigitIn (base : Nat) (c : Char) : Bool :=
  match digitValue? c with
  | some d => d < base
  | none => false

/-- The number of digits in a base. -/
def digitsValue (base : Nat) (ds : List Char) : Nat :=
  ds.foldl (fun n c => base * n + (digitValue? c).getD 0) 0

/-- Whether a character is a blank before or after a number. -/
def isSpaceByte (c : Char) : Bool :=
  c == ' ' || (9 ≤ c.toNat && c.toNat ≤ 13)

/-- A number that a text begins with. -/
structure NumberRead where
  negative : Bool
  magnitude : Nat
  /-- What stands after it. -/
  rest : List Char

/-- The number without a sign that a text begins with: in base ten, or else octal after a zero, hexadecimal after
    a zero and an x, and binary after a zero and a b. -/
def readMagnitude (anyBase : Bool) (s : List Char) : Option (Nat × List Char) :=
  let run (base : Nat) (s : List Char) : Nat × List Char :=
    let ds := s.takeWhile (isDigitIn base)
    (digitsValue base ds, s.drop ds.length)
  match s with
  | '0' :: x :: d :: r =>
    if anyBase && (x == 'x' || x == 'X') && isDigitIn 16 d then some (run 16 (d :: r))
    else if anyBase && (x == 'b' || x == 'B') && isDigitIn 2 d then some (run 2 (d :: r))
    else if anyBase then some (run 8 s)
    else some (run 10 s)
  | '0' :: _ => some (run (if anyBase then 8 else 10) s)
  | c :: _ => if c.isDigit then some (run 10 s) else none
  | [] => none

/-- The number that a text begins with after blanks and a sign. -/
def readNumber (anyBase : Bool) (s : List Char) : Option NumberRead :=
  let s := s.dropWhile isSpaceByte
  let (negative, s) := match s with
    | '-' :: r => (true, r)
    | '+' :: r => (false, r)
    | r => (false, r)
  (readMagnitude anyBase s).map fun (magnitude, rest) => ⟨negative, magnitude, rest⟩

namespace NumberRead

/-- Whether the number is out of the range of words with a sign. -/
def isTooLarge (n : NumberRead) : Bool :=
  n.magnitude > (if n.negative then 9223372036854775808 else 9223372036854775807)

/-- The number, cut off at the ends of the range. -/
def value (n : NumberRead) : Int :=
  let m : Int := n.magnitude
  if n.negative then max leastInteger (-m) else min greatestInteger m

/-- The number as a word without a sign, cut off at the end of the range. -/
def word (n : NumberRead) : Nat :=
  if n.magnitude ≥ 18446744073709551616 then 18446744073709551615
  else if n.negative then unsignedWord (-(n.magnitude : Int))
  else n.magnitude

end NumberRead

/-- The number that a whole text is, but for blanks around it. -/
def wholeInteger? (anyBase : Bool) (s : List Char) : Option Int :=
  match readNumber anyBase s with
  | some n => if n.isTooLarge || !n.rest.all isSpaceByte then none else some n.value
  | none => none

end BoundaryProxy.Shell
