/-!
# `BoundaryProxy.Json.Literal` — JSON strings and numbers

A string stands between quotes. Inside it a quote, a backslash and the control characters are escaped; the
escape `\u` with four digits gives a UTF-16 unit, and two of them a character beyond the first plane. Units
that form no character leave the string without a meaning, but it still ends where its quote stands.
-/

namespace BoundaryProxy.Json

/-! ## Writing strings -/

/-- A hexadecimal digit, lower case. -/
def hexDigit (n : Nat) : Char :=
  "0123456789abcdef".toList.getD n '0'

/-- A character inside a string. -/
def escape (c : Char) : List Char :=
  match c with
  | '"' => ['\\', '"']
  | '\\' => ['\\', '\\']
  | '\n' => ['\\', 'n']
  | '\r' => ['\\', 'r']
  | '\t' => ['\\', 't']
  | '\x08' => ['\\', 'b']
  | '\x0c' => ['\\', 'f']
  | c =>
    if c.toNat < 0x20 then ['\\', 'u', '0', '0', hexDigit (c.toNat / 16), hexDigit (c.toNat % 16)]
    else [c]

/-- The characters of a string with the quote that ends it. -/
def quoteBody (s : List Char) : List Char :=
  s.flatMap escape ++ ['"']

/-- A string between quotes. -/
def quote (s : String) : String :=
  String.ofList ('"' :: quoteBody s.toList)

/-! ## Reading strings -/

/-- The value of a hexadecimal digit, either case. -/
def hexValue (c : Char) : Option Nat :=
  if '0' ≤ c ∧ c ≤ '9' then some (c.toNat - '0'.toNat)
  else if 'a' ≤ c ∧ c ≤ 'f' then some (c.toNat - 'a'.toNat + 10)
  else if 'A' ≤ c ∧ c ≤ 'F' then some (c.toNat - 'A'.toNat + 10)
  else none

/-- The value of four hexadecimal digits. -/
def hexUnit (a b c d : Char) : Option Nat := do
  return (((← hexValue a) * 16 + (← hexValue b)) * 16 + (← hexValue c)) * 16 + (← hexValue d)

/-- The character of a one-letter escape. -/
def shortEscape : Char → Option Char
  | '"' => some '"'
  | '\\' => some '\\'
  | '/' => some '/'
  | 'b' => some '\x08'
  | 'f' => some '\x0c'
  | 'n' => some '\n'
  | 'r' => some '\r'
  | 't' => some '\t'
  | _ => none

/-- The rest of a string: its characters unless they are no text, and what follows the closing quote. -/
abbrev StringRest := Option (List Char) × List Char

/-- A character in front of the rest of a string. -/
def addChar (c : Char) (r : StringRest) : StringRest :=
  (r.1.map (c :: ·), r.2)

/-- The rest of a string behind a unit that is no character. -/
def addLone (r : StringRest) : StringRest :=
  (none, r.2)

/-- Whether a unit begins a pair. -/
def isHighUnit (n : Nat) : Bool :=
  0xD800 ≤ n && n < 0xDC00

/-- Whether a unit ends a pair. -/
def isLowUnit (n : Nat) : Bool :=
  0xDC00 ≤ n && n < 0xE000

/-- The character of a pair of units. -/
def pairChar (high low : Nat) : Char :=
  Char.ofNat (0x10000 + (high - 0xD800) * 0x400 + (low - 0xDC00))

/-- The rest of a string behind a unit that may be waiting for its other half. -/
def settle : Option Nat → StringRest → StringRest
  | none, r => r
  | some _, r => addLone r

/-- Read a string from behind its opening quote; `none` if it does not end or breaks a rule of form. The unit
    just before may be the first half of a pair. -/
def readString : Option Nat → List Char → Option StringRest
  | _, [] => none
  | high, '"' :: rest => some (settle high (some [], rest))
  | high, '\\' :: 'u' :: a :: b :: c :: d :: rest =>
    match hexUnit a b c d with
    | none => none
    | some n =>
      if isLowUnit n then
        match high with
        | some h => (readString none rest).map (addChar (pairChar h n))
        | none => (readString none rest).map addLone
      else if isHighUnit n then (readString (some n) rest).map (settle high)
      else (readString none rest).map fun r => settle high (addChar (Char.ofNat n) r)
  | high, '\\' :: c :: rest =>
    match shortEscape c with
    | some c => (readString none rest).map fun r => settle high (addChar c r)
    | none => none
  | high, c :: rest =>
    if c.toNat < 0x20 then none
    else (readString none rest).map fun r => settle high (addChar c r)

/-! ## Numbers -/

/-- Whether a character is a decimal digit. -/
def isDigit (c : Char) : Bool :=
  '0' ≤ c && c ≤ '9'

/-- Read one or more digits. -/
def readDigits (s : List Char) : Option (List Char × List Char) :=
  let digits := s.takeWhile isDigit
  if digits.isEmpty then none else some (digits, s.dropWhile isDigit)

/-- Read the whole part of a number: no digit follows a leading zero. -/
def readWholePart : List Char → Option (List Char × List Char)
  | '0' :: rest => if (rest.head?.map isDigit).getD false then none else some (['0'], rest)
  | s => readDigits s

/-- Read a part of a number that may be missing. -/
def readFraction : List Char → Option (List Char × List Char)
  | '.' :: rest => (readDigits rest).map fun (digits, rest) => ('.' :: digits, rest)
  | s => some ([], s)

/-- Read the sign of an exponent. -/
def readExponentSign : List Char → List Char × List Char
  | '+' :: rest => (['+'], rest)
  | '-' :: rest => (['-'], rest)
  | s => ([], s)

/-- Read the exponent of a number, which may be missing. -/
def readExponent : List Char → Option (List Char × List Char)
  | c :: rest =>
    if c = 'e' ∨ c = 'E' then
      let (sign, rest) := readExponentSign rest
      (readDigits rest).map fun (digits, rest) => (c :: sign ++ digits, rest)
    else some ([], c :: rest)
  | [] => some ([], [])

/-- Read the sign of a number. -/
def readMinus : List Char → List Char × List Char
  | '-' :: rest => (['-'], rest)
  | s => ([], s)

/-- Read a number: its characters and what follows it. -/
def readNumber (s : List Char) : Option (String × List Char) := do
  let (sign, s) := readMinus s
  let (whole, s) ← readWholePart s
  let (fraction, s) ← readFraction s
  let (exponent, s) ← readExponent s
  return (String.ofList (sign ++ whole ++ fraction ++ exponent), s)

end BoundaryProxy.Json
