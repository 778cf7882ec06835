import BoundaryProxy.Toml.Text

/-!
# `BoundaryProxy.Toml.Scalar` — TOML numbers, truth values and dates

A reader here returns what follows the value. Values out of range are no values: an integer takes 64 bits, a
decimal number must not be too large for a double, and a date must be one of the calendar.
-/

namespace BoundaryProxy.Toml

/-- Whether a character is a decimal digit. -/
def isDigit (c : Char) : Bool :=
  '0' ≤ c && c ≤ '9'

/-- Whether a character is an octal digit. -/
def isOctal (c : Char) : Bool :=
  '0' ≤ c && c ≤ '7'

/-- Whether a character is a binary digit. -/
def isBinary (c : Char) : Bool :=
  c == '0' || c == '1'

/-- Whether a character is a hexadecimal digit. -/
def isHex (c : Char) : Bool :=
  (hexValue c).isSome

/-- The value of digits in a base; anything that is no digit is passed over. -/
def digitsValue (base : Nat) (digits : List Char) : Nat :=
  digits.foldl (fun n c => match hexValue c with
    | some d => n * base + d
    | none => n) 0

/-! ## Digits -/

/-- The digits at the start of a text that continue a number; a single underscore may stand before each. -/
def moreDigits (isOne : Char → Bool) : List Char → List Char × List Char
  | '_' :: c :: rest =>
    if isOne c then (addChar c (moreDigits isOne rest)) else ([], '_' :: c :: rest)
  | c :: rest => if isOne c then addChar c (moreDigits isOne rest) else ([], c :: rest)
  | [] => ([], [])

/-- One or more digits. -/
def readDigits (isOne : Char → Bool) : List Char → Option (List Char × List Char)
  | c :: rest => if isOne c then some (addChar c (moreDigits isOne rest)) else none
  | [] => none

/-- A sign that may be missing: whether it is a minus, and what follows. -/
def readSign : List Char → Bool × List Char
  | '-' :: rest => (true, rest)
  | '+' :: rest => (false, rest)
  | s => (false, s)

/-- The digits of a decimal number without its sign; a number has no leading zero. -/
def readDecimal : List Char → Option (List Char × List Char)
  | '0' :: rest => some (['0'], rest)
  | s => readDigits isDigit s

/-! ## Integers -/

/-- The least number that takes more than 63 bits. -/
def integerBound : Nat :=
  Nat.pow 2 63

/-- Digits in a base other than ten whose value takes no more than 63 bits. -/
def readBased (base : Nat) (isOne : Char → Bool) (s : List Char) : Option (List Char) := do
  let (digits, rest) ← readDigits isOne s
  if digitsValue base digits < integerBound then return rest else none

/-- An integer. -/
def readInteger : List Char → Option (List Char)
  | '0' :: 'x' :: rest => readBased 16 isHex rest
  | '0' :: 'o' :: rest => readBased 8 isOctal rest
  | '0' :: 'b' :: rest => readBased 2 isBinary rest
  | s => do
    let (minus, s) := readSign s
    let (digits, rest) ← readDecimal s
    let bound := if minus then integerBound else integerBound - 1
    if digitsValue 10 digits ≤ bound then return rest else none

/-! ## Decimal numbers -/

/-- Whether `mantissa · 10 ^ exponent` rounds to no finite double: it is at least the midpoint between the
    largest double and the next power of two. -/
def isTooLarge (mantissa : Nat) (exponent : Int) : Bool :=
  let digits : Int := (Nat.toDigits 10 mantissa).length
  if mantissa = 0 then false
  else if digits + exponent > 400 then true
  else if digits + exponent < 300 then false
  else mantissa * Nat.pow 10 exponent.toNat ≥ (Nat.pow 2 1024 - Nat.pow 2 970) * Nat.pow 10 (-exponent).toNat

/-- The digits behind a point. -/
def readFraction : List Char → Option (List Char × List Char)
  | '.' :: rest => readDigits isDigit rest
  | _ => none

/-- The exponent of a number. -/
def readExponent : List Char → Option (Int × List Char)
  | c :: rest =>
    if c = 'e' ∨ c = 'E' then do
      let (minus, rest) := readSign rest
      let (digits, rest) ← readDigits isDigit rest
      let n : Int := digitsValue 10 digits
      return (if minus then -n else n, rest)
    else none
  | [] => none

/-- A number with a fraction, an exponent or both. -/
def readFloat (s : List Char) : Option (List Char) := do
  let (minus, s) := readSign s
  match s with
  | 'i' :: 'n' :: 'f' :: rest => return rest
  | 'n' :: 'a' :: 'n' :: rest => return rest
  | s =>
    let (whole, s) ← readDecimal s
    let fraction? := readFraction s
    let (fraction, s) := fraction?.getD ([], s)
    let exponent? := readExponent s
    let (exponent, s) := exponent?.getD (0, s)
    if fraction?.isNone && exponent?.isNone then none
    else if !minus && isTooLarge (digitsValue 10 (whole ++ fraction)) (exponent - fraction.length) then none
    else return s

/-! ## Dates and times -/

/-- A number of two digits up to a bound. -/
def readPair (bound : Nat) : List Char → Option (Nat × List Char)
  | a :: b :: rest =>
    if isDigit a && isDigit b && digitsValue 10 [a, b] ≤ bound then some (digitsValue 10 [a, b], rest)
    else none
  | _ => none

/-- What follows a character at the start of a text. -/
def readChar (c : Char) : List Char → Option (List Char)
  | d :: rest => if d = c then some rest else none
  | [] => none

/-- The number of days of a month. -/
def daysIn (year month : Nat) : Nat :=
  if month = 2 then
    if year % 4 = 0 ∧ (year % 100 ≠ 0 ∨ year % 400 = 0) then 29 else 28
  else if month = 4 ∨ month = 6 ∨ month = 9 ∨ month = 11 then 30
  else 31

/-- A date of the calendar. -/
def readDate (s : List Char) : Option (List Char) := do
  let (century, s) ← readPair 99 s
  let (year, s) ← readPair 99 s
  let (month, s) ← readPair 12 (← readChar '-' s)
  let (day, s) ← readPair 31 (← readChar '-' s)
  if month = 0 ∨ day = 0 ∨ daysIn (century * 100 + year) month < day then none else return s

/-- The fraction of a second, if there is one. -/
def readSecondFraction (s : List Char) : List Char :=
  match s with
  | '.' :: c :: rest => if isDigit c then rest.dropWhile isDigit else s
  | s => s

/-- A time of day with its seconds. -/
def readTime (s : List Char) : Option (List Char) := do
  let (_, s) ← readPair 23 s
  let (_, s) ← readPair 59 (← readChar ':' s)
  let (_, s) ← readPair 60 (← readChar ':' s)
  return readSecondFraction s

/-- The distance of a time from universal time, if it is given. -/
def readOffset (s : List Char) : List Char :=
  match s with
  | 'Z' :: rest => rest
  | 'z' :: rest => rest
  | c :: rest =>
    if c = '+' ∨ c = '-' then
      (do
        let (_, rest) ← readPair 23 rest
        let (_, rest) ← readPair 59 (← readChar ':' rest)
        return rest : Option (List Char)).getD s
    else s
  | [] => []

/-- A date with or without a time, or a time alone. -/
def readMoment (s : List Char) : Option (List Char) :=
  match readDate s with
  | none => readTime s
  | some rest =>
    match rest with
    | c :: more =>
      if c = 'T' ∨ c = 't' ∨ c = ' ' then
        some (((readTime more).map readOffset).getD rest)
      else some rest
    | [] => some []

/-- A number or a date: the first kind that fits. -/
def readScalar (s : List Char) : Option (List Char) :=
  (readMoment s).or ((readFloat s).or (readInteger s))

end BoundaryProxy.Toml
