/-!
# `BoundaryProxy.Shell.Pattern` — patterns for texts and file names

A pattern is a list of items, each of which stands for one character or, for a star, for any number of them.
In the word that a pattern is made of, each character is escaped or not; escaped ones stand for themselves.
-/

namespace BoundaryProxy.Shell

/-- A character and whether it is escaped. -/
abbrev Marked := Char × Bool

/-! ## Classes of characters -/

/-- A class of bytes. -/
inductive CharClass where
  | alnum
  | alpha
  | blank
  | control
  | digit
  | graph
  | lower
  | print
  | punctuation
  | space
  | upper
  | hexadecimal
deriving Repr, DecidableEq

namespace CharClass

/-- The classes by the names that brackets know them by. -/
def named : List (String × CharClass) :=
  [("alnum", alnum), ("alpha", alpha), ("blank", blank), ("cntrl", control), ("digit", digit),
    ("graph", graph), ("lower", lower), ("print", print), ("punct", punctuation), ("space", space),
    ("upper", upper), ("xdigit", hexadecimal)]

/-- Whether a byte is in a class. -/
def contains : CharClass → Char → Bool
  | alnum, c => c.isAlphanum
  | alpha, c => c.isAlpha
  | blank, c => c == ' ' || c == '\t'
  | control, c => c.toNat < 32 || c.toNat == 127
  | digit, c => c.isDigit
  | graph, c => 33 ≤ c.toNat && c.toNat < 127
  | lower, c => c.isLower
  | print, c => 32 ≤ c.toNat && c.toNat < 127
  | punctuation, c => 33 ≤ c.toNat && c.toNat < 127 && !c.isAlphanum
  | space, c => c == ' ' || (9 ≤ c.toNat && c.toNat ≤ 13)
  | upper, c => c.isUpper
  | hexadecimal, c => c.isDigit || ('a' ≤ c && c ≤ 'f') || ('A' ≤ c && c ≤ 'F')

end CharClass

/-! ## Items -/

/-- What stands between brackets. -/
inductive BracketItem where
  | range (low high : Char)
  | ofClass (c : CharClass)
deriving Repr, DecidableEq

/-- Whether a character is one of those that an item stands for. -/
def BracketItem.contains : BracketItem → Char → Bool
  | range low high, c => low ≤ c && c ≤ high
  | ofClass k, c => k.contains c

/-- An item of a pattern. -/
inductive PatternItem where
  | exactly (c : Char)
  | anyOne
  | anyRun
  /-- A character that one of the items stands for, or none of them. -/
  | oneOf (negated : Bool) (items : List BracketItem)
deriving Repr, DecidableEq

namespace PatternItem

/-- Whether an item that is not a star stands for a character. -/
def accepts : PatternItem → Char → Bool
  | exactly c, d => c == d
  | anyOne, _ => true
  | anyRun, _ => false
  | oneOf negated items, d => items.any (·.contains d) != negated

/-- The class whose name in colons a word begins with, and what stands after the bracket that closes it. -/
def classAtStart (w : List Marked) : Option (CharClass × List Marked) :=
  CharClass.named.findSome? fun (name, c) =>
    let sign : List Marked := s!":{name}:]".toList.map fun d => (d, false)
    if sign.isPrefixOf w then some (c, w.drop sign.length) else none

/-- The first item of a word between brackets and what stands after it. -/
def bracketItem (c : Char) (escaped : Bool) (w : List Marked) : BracketItem × List Marked :=
  match if c == '[' && !escaped then classAtStart w else none with
  | some (k, rest) => (.ofClass k, rest)
  | none =>
    match w with
    | ('-', false) :: (d, e) :: rest =>
      if d == ']' && !e then (.range c c, w) else (.range c d, rest)
    | _ => (.range c c, w)

/-- The items before a closing bracket and what stands after it. A bracket that is the first character does
    not close. -/
def bracketItems (first : Bool) : Nat → List Marked → Option (List BracketItem × List Marked)
  | 0, _ => none
  | _ + 1, [] => none
  | fuel + 1, (c, escaped) :: w =>
    if c == ']' && !escaped && !first then some ([], w)
    else
      let (item, w) := bracketItem c escaped w
      (bracketItems false fuel w).map fun (items, rest) => (item :: items, rest)

/-- The items of a word. -/
def ofWord : Nat → List Marked → List PatternItem
  | 0, _ => []
  | _ + 1, [] => []
  | fuel + 1, (c, true) :: r => exactly c :: ofWord fuel r
  | fuel + 1, ('*', false) :: r => anyRun :: ofWord fuel r
  | fuel + 1, ('?', false) :: r => anyOne :: ofWord fuel r
  | fuel + 1, ('[', false) :: r =>
    let (negated, body) := match r with
      | ('!', false) :: r' => (true, r')
      | _ => (false, r)
    match bracketItems true (body.length + 1) body with
    | some (items, rest) => oneOf negated items :: ofWord fuel rest
    | none => exactly '[' :: ofWord fuel r
  | fuel + 1, (c, false) :: r => exactly c :: ofWord fuel r

end PatternItem

/-- A word in which no backslash escapes anything any more: what stands after one is escaped. -/
def withoutBackslashes : List Marked → List Marked
  | [] => []
  | ('\\', false) :: (c, _) :: w => (c, true) :: withoutBackslashes w
  | [('\\', false)] => [('\\', true)]
  | x :: w => x :: withoutBackslashes w

/-- A pattern for a text. -/
abbrev Pattern := List PatternItem

namespace Pattern

/-- The pattern of a word. -/
def ofWord (w : List Marked) : Pattern :=
  let w := withoutBackslashes w
  PatternItem.ofWord (w.length + 1) w

/-- Whether a pattern has an item that stands for more than one text. -/
def hasSigns (p : Pattern) : Bool :=
  p.any fun
    | .exactly _ => false
    | _ => true

/-- Whether a pattern stands for a text. -/
def accepts : Pattern → List Char → Bool
  | [], s => s.isEmpty
  | .anyRun :: p, s => (List.range (s.length + 1)).any fun n => accepts p (s.drop n)
  | item :: p, s =>
    match s with
    | [] => false
    | c :: s => item.accepts c && accepts p s

/-! Several texts may be taken together, with a null character between two of them. A pattern does not see
what stands behind such a character. -/

/-- A text up to its first null character. -/
def firstText (s : List Char) : List Char :=
  s.takeWhile (· != '\x00')

/-- How many characters at the start of a text a pattern stands for: the fewest or the most. -/
def startLength? (p : Pattern) (longest : Bool) (s : List Char) : Option Nat :=
  let cuts := (List.range (s.length + 1)).filter fun n => accepts p (firstText (s.take n))
  if longest then cuts.getLast? else cuts.head?

/-- How many characters stand before those at the end of a text that a pattern stands for, the fewest or the
    most of them. The most of them are looked for in the first text only. -/
def endStart? (p : Pattern) (longest : Bool) (s : List Char) : Option Nat :=
  let cuts := (List.range (s.length + 1)).filter fun n => accepts p (firstText (s.drop n))
  if longest then (cuts.filter (· ≤ (firstText s).length)).head? else cuts.getLast?

end Pattern

end BoundaryProxy.Shell
