import BoundaryProxy.Shell.Integer

/-!
# `BoundaryProxy.Shell.Format` — what `echo` and `printf` print

Both know escapes that begin with a backslash. A format of `printf` is used again as long as it takes
arguments and there are arguments left; a conversion without an argument takes an empty one.
-/

namespace BoundaryProxy.Shell

/-! ## Escapes -/

/-- The character of an escape that is a letter or a backslash. -/
def letterEscape : Char → Option Char
  | '\\' => some '\\'
  | 'a' => some '\x07'
  | 'b' => some '\x08'
  | 'e' => some '\x1b'
  | 'f' => some '\x0c'
  | 'n' => some '\n'
  | 'r' => some '\r'
  | 't' => some '\t'
  | 'v' => some '\x0b'
  | _ => none

/-- The character of an escape after its backslash, and what follows it. Up to three octal digits are an escape;
    after what is none the backslash stands for itself. -/
def escapeAt (s : List Char) : Char × List Char :=
  let digits := (s.takeWhile (isDigitIn 8)).take 3
  if !digits.isEmpty then (Char.ofNat (digitsValue 8 digits % 256), s.drop digits.length)
  else
    match s with
    | c :: r =>
      match letterEscape c with
      | some d => (d, r)
      | none => ('\\', s)
    | [] => ('\\', s)

/-- What follows the backslash of an escape in an argument: there a zero may stand before the octal digits. -/
def withoutZero : List Char → List Char
  | '0' :: d :: r => if isDigitIn 8 d then d :: r else '0' :: d :: r
  | s => s

/-- An argument with its escapes replaced, and whether one of them ends all output. -/
def unescape : Nat → List Char → List Char × Bool
  | 0, _ => ([], false)
  | _ + 1, [] => ([], false)
  | _ + 1, '\\' :: 'c' :: _ => ([], true)
  | fuel + 1, '\\' :: s =>
    let (c, r) := escapeAt (withoutZero s)
    let (text, stopped) := unescape fuel r
    (c :: text, stopped)
  | fuel + 1, c :: s =>
    let (text, stopped) := unescape fuel s
    (c :: text, stopped)

/-- What `echo` prints. -/
def echoText (args : List String) : List Char :=
  let (ending, words) := match args with
    | "-n" :: rest => ([], rest)
    | _ => (['\n'], args)
  let text := (String.intercalate " " words).toList
  let (text, stopped) := unescape (text.length + 1) text
  if stopped then text else text ++ ending

/-! ## Layouts -/

/-- Digits with at least so many of them. -/
def atLeast (count : Nat) (digits : List Char) : List Char :=
  List.replicate (count - digits.length) '0' ++ digits

/-- What a conversion asks for besides its letter. -/
structure Layout where
  left : Bool := false
  zeros : Bool := false
  plus : Bool := false
  space : Bool := false
  alternate : Bool := false
  width : Nat := 0
  precision : Option Nat := none

namespace Layout

/-- A text in the width of a layout. -/
def pad (l : Layout) (s : List Char) : List Char :=
  let gap := List.replicate (l.width - s.length) ' '
  if l.left then s ++ gap else gap ++ s

/-- A number in the width of a layout, with zeros between its sign and its digits if they are asked for. -/
def padNumber (l : Layout) (zeros : Bool) (sign digits : List Char) : List Char :=
  if zeros && l.zeros && !l.left then
    sign ++ List.replicate (l.width - sign.length - digits.length) '0' ++ digits
  else l.pad (sign ++ digits)

/-- The sign of a number. -/
def sign (l : Layout) (negative : Bool) : List Char :=
  if negative then ['-'] else if l.plus then ['+'] else if l.space then [' '] else []

/-- The digits of a whole number: none for a zero without places. -/
def digits (l : Layout) (base n : Nat) : List Char :=
  match l.precision with
  | some count => if n == 0 && count == 0 then [] else atLeast count (Nat.toDigits base n)
  | none => Nat.toDigits base n

/-- A whole number with its sign. -/
def signed (l : Layout) (n : Int) : List Char :=
  l.padNumber l.precision.isNone (l.sign (n < 0)) (l.digits 10 n.natAbs)

/-- A word without a sign in a base. -/
def unsigned (l : Layout) (kind : Char) (n : Nat) : List Char :=
  match kind with
  | 'o' =>
    let ds := l.digits 8 n
    l.padNumber l.precision.isNone [] (if l.alternate && ds.head? != some '0' then '0' :: ds else ds)
  | 'x' => l.padNumber l.precision.isNone (if l.alternate && n != 0 then ['0', 'x'] else []) (l.digits 16 n)
  | 'X' =>
    l.padNumber l.precision.isNone (if l.alternate && n != 0 then ['0', 'X'] else [])
      ((l.digits 16 n).map Char.toUpper)
  | _ => l.padNumber l.precision.isNone [] (l.digits 10 n)

/-- The text of an argument that is no number. -/
def plain (l : Layout) (s : List Char) : List Char :=
  l.pad <| match l.precision with
    | some n => s.take n
    | none => s

end Layout

/-! ## Formats -/

/-- How far a format has been used. -/
structure Printing where
  args : List String
  text : Array Char := #[]
  warnings : Array String := #[]
  /-- Whether an argument has been taken. -/
  took : Bool := false
  /-- Whether an escape has ended all output. -/
  stopped : Bool := false

/-- A step of using a format; it may find that the format is none. -/
abbrev Printer := StateT Printing (Except (String × Printing))

namespace Printer

/-- Print a text. -/
def put (s : List Char) : Printer Unit :=
  modify fun p => { p with text := p.text ++ s.toArray }

/-- Warn of an argument. -/
def warn (s : String) : Printer Unit :=
  modify fun p => { p with warnings := p.warnings.push s }

/-- Give up on a format. -/
def refuse {α : Type} (reason : String) : Printer α := do
  throw (reason, ← get)

/-- Take the next argument. -/
def argument : Printer (Option String) := do
  let p ← get
  match p.args with
  | [] => return none
  | arg :: args =>
    set { p with args, took := true }
    return some arg

/-- Warn of an argument that is no number, or not only one. -/
def warnOf (arg : String) (rest : Option (List Char)) (isTooLarge : Bool) : Printer Unit := do
  match rest with
  | none => if !arg.isEmpty then warn s!"{arg}: expected numeric value"
  | some rest =>
    if !rest.isEmpty then warn s!"{arg}: not completely converted"
    else if isTooLarge then warn s!"{arg}: Numerical result out of range"

/-- The byte after a quote: the number that such an argument stands for. -/
def quotedByte? (arg : String) : Option Nat :=
  match arg.toList with
  | '\'' :: r => some ((r.head?.map Char.toNat).getD 0)
  | '"' :: r => some ((r.head?.map Char.toNat).getD 0)
  | _ => none

/-- Take a number with a sign. -/
def signedArgument : Printer Int := do
  let arg := (← argument).getD ""
  match quotedByte? arg with
  | some n => return n
  | none =>
    let n := readNumber true arg.toList
    warnOf arg (n.map (·.rest)) ((n.map (·.isTooLarge)).getD false)
    return (n.map (·.value)).getD 0

/-- Take a word without a sign. -/
def unsignedArgument : Printer Nat := do
  let arg := (← argument).getD ""
  match quotedByte? arg with
  | some n => return n
  | none =>
    let n := readNumber true arg.toList
    warnOf arg (n.map (·.rest)) ((n.map fun n => decide (n.magnitude ≥ 18446744073709551616)).getD false)
    return (n.map (·.word)).getD 0

/-- A number in the range of half words, in which the numbers of a layout are kept. -/
def halfWord (n : Int) : Int :=
  (n + 2147483648) % 4294967296 - 2147483648

/-- Read a number of a layout, or take it from the arguments if a star stands for it. -/
def layoutNumber (s : List Char) : Printer (Option Int × List Char) := do
  match s with
  | '*' :: r => return (some (halfWord (← signedArgument)), r)
  | _ =>
    let run := s.takeWhile fun c => c.isDigit || c == '*'
    let ds := run.takeWhile Char.isDigit
    return (if run.isEmpty then none else some (digitsValue 10 ds), s.drop run.length)

/-- Read the layout of a conversion. -/
def layout (s : List Char) : Printer (Layout × List Char) := do
  let flags := s.takeWhile fun c => ['#', '-', '+', ' ', '0'].contains c
  let (width, r) ← layoutNumber (s.drop flags.length)
  let width := width.getD 0
  let (precision, r) ← match r with
    | '.' :: r => do
      let (n, r) ← layoutNumber r
      let n := n.getD 0
      pure (if n < 0 then none else some n.toNat, r)
    | _ => pure (none, r)
  return (⟨flags.contains '-' || width < 0, flags.contains '0', flags.contains '+', flags.contains ' ',
    flags.contains '#', width.natAbs, precision⟩, r)

/-- Print what a conversion makes of the next argument. -/
def convert (l : Layout) (kind : Char) : Printer Bool := do
  if kind == 's' then
    put (l.plain ((← argument).getD "").toList)
    return true
  else if kind == 'b' then
    let arg := ((← argument).getD "").toList
    let (text, stopped) := unescape (arg.length + 1) arg
    put (l.plain text)
    if stopped then modify fun p => { p with stopped }
    return true
  else if kind == 'c' then
    put (l.pad ((((← argument).getD "").toList ++ ['\x00']).take 1))
    return true
  else if kind == 'd' || kind == 'i' then
    put (l.signed (← signedArgument))
    return true
  else if ['o', 'u', 'x', 'X'].contains kind then
    put (l.unsigned kind (← unsignedArgument))
    return true
  else return false

/-- Use a format once. -/
def once : Nat → List Char → Printer Unit
  | 0, _ => return ()
  | _ + 1, [] => return ()
  | fuel + 1, '%' :: '%' :: s => do
    put ['%']
    once fuel s
  | fuel + 1, '%' :: s => do
    let (l, r) ← layout s
    match r with
    | [] => refuse "missing format character"
    | kind :: rest =>
      if ← convert l kind then
        if !(← get).stopped then once fuel rest
      else refuse s!"%{String.ofList (s.take (s.length - rest.length))}: invalid directive"
  | fuel + 1, '\\' :: s => do
    let (c, r) := escapeAt s
    put [c]
    once fuel r
  | fuel + 1, c :: s => do
    put [c]
    once fuel s

/-- Use a format as often as there are arguments for it. -/
def repeatedly (format : List Char) : Nat → Printer Unit
  | 0 => return ()
  | fuel + 1 => do
    once (format.length + 1) format
    let p ← get
    if p.took && !p.args.isEmpty && !p.stopped then repeatedly format fuel

end Printer

/-- What `printf` prints, and why the format is none if it is not. -/
def printfRun (format : String) (args : List String) : Printing × Option String :=
  match (Printer.repeatedly format.toList (args.length + 1)).run { args } with
  | .ok (_, p) => (p, none)
  | .error (reason, p) => (p, some reason)

end BoundaryProxy.Shell
