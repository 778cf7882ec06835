import BoundaryProxy.Host.Disk
import BoundaryProxy.Shell.ByteText
import BoundaryProxy.Shell.Integer

/-!
# `BoundaryProxy.Shell.Condition` — the conditions of `test`

A condition looks at texts, whole numbers and files. Conditions are joined by `-a` and `-o`, of which `-a`
binds more tightly, negated by an exclamation mark, and set in parentheses. Whether an argument is an operator
or an operand may depend on the two arguments after it.
-/

namespace BoundaryProxy.Shell

open Host

/-- Why arguments are no condition. -/
inductive ConditionFlaw where
  | badNumber (s : String)
  | unexpectedOperator (s : String)
  | argumentExpected (s : String)
  | parenExpected
deriving Repr, DecidableEq

/-- The flaw in words. -/
def ConditionFlaw.text : ConditionFlaw → String
  | badNumber s => s!"Illegal number: {s}"
  | unexpectedOperator s => if s.isEmpty then "unexpected operator" else s!"{s}: unexpected operator"
  | argumentExpected s => s!"{s}: argument expected"
  | parenExpected => "closing paren expected"

/-- What an argument of a condition is. -/
inductive ConditionToken where
  | end
  | operand
  /-- A question about one text or file. -/
  | question (op : String)
  /-- A comparison of two texts, numbers or files. -/
  | comparison (op : String)
  | not
  | and
  | or
  | parenOpen
  | parenClose
deriving Repr, DecidableEq

namespace ConditionToken

/-- The operator that an argument is by itself. -/
def ofOperator? (s : String) : Option ConditionToken :=
  if ["-r", "-w", "-x", "-e", "-f", "-d", "-c", "-b", "-p", "-u", "-g", "-k", "-s", "-t", "-z", "-n", "-h", "-O",
      "-G", "-L", "-S"].contains s then some (question s)
  else if ["=", "!=", "<", ">", "-eq", "-ne", "-ge", "-gt", "-le", "-lt", "-nt", "-ot", "-ef"].contains s then
    some (comparison s)
  else
    match s with
    | "!" => some not
    | "-a" => some and
    | "-o" => some or
    | "(" => some parenOpen
    | ")" => some parenClose
    | _ => none

/-- Whether an argument is a comparison. -/
def isComparison (s : String) : Bool :=
  match ofOperator? s with
  | some (comparison _) => true
  | _ => false

/-- What the first of some arguments is. A question is none if nothing follows it, or a comparison with
    something to compare. -/
def ofArgs : List String → ConditionToken
  | [] => .end
  | s :: rest =>
    match ofOperator? s with
    | some (question op) =>
      match rest with
      | [] => operand
      | [_] => question op
      | next :: _ => if isComparison next then operand else question op
    | some parenOpen => if rest.isEmpty then operand else parenOpen
    | some t => t
    | none => operand

end ConditionToken

/-- A step of evaluating a condition: the state is the arguments from the current one on. -/
abbrev Weighing := StateT (List String) (Except ConditionFlaw)

namespace Weighing

/-- The number of an argument. -/
def number (s : String) : Weighing Int := do
  match wholeInteger? false s.toList with
  | some n => return n
  | none => throw (.badNumber s)

/-- What the argument so many places further on is, without going there. -/
def look (places : Nat) : Weighing ConditionToken :=
  return ConditionToken.ofArgs ((← get).drop places)

/-- Go on by some arguments. -/
def advance (places : Nat) : Weighing Unit :=
  modify (·.drop places)

/-- The current argument. -/
def current : Weighing (Option String) :=
  return (← get).head?

/-- Compare two texts, numbers or files. -/
def compare (d : Disk) (here : Place) (a op b : String) : Weighing Bool := do
  let place (s : String) : Option Place :=
    match d.place here (decode s) with
    | .ok p => if d.isTaken p then some p else none
    | .error _ => none
  match op with
  | "=" => return a == b
  | "!=" => return a != b
  | "<" => return a < b
  | ">" => return b < a
  | "-eq" => return (← number a) == (← number b)
  | "-ne" => return (← number a) != (← number b)
  | "-lt" => return (← number a) < (← number b)
  | "-le" => return (← number a) ≤ (← number b)
  | "-gt" => return (← number a) > (← number b)
  | "-ge" => return (← number a) ≥ (← number b)
  | "-ef" => return (place a).isSome && place a == place b
  | _ => return false

/-- Answer a question about a text or file. -/
def ask (d : Disk) (here : Place) (op a : String) : Weighing Bool := do
  let entry := d.look? here (decode a)
  let device := d.device? here (decode a)
  let isThere := entry.isSome || device.isSome
  match op with
  | "-n" => return !a.isEmpty
  | "-z" => return a.isEmpty
  | "-t" =>
    let _ ← number a
    return false
  | "-f" => return match entry with
    | some (.file ..) => true
    | _ => false
  | "-d" => return entry == some .directory
  | "-x" => return match entry with
    | some (.file _ executable) => executable
    | some .directory => true
    | none => false
  | "-s" => return match entry with
    | some (.file content _) => !content.isEmpty
    | some .directory => true
    | none => false
  | "-c" => return match device with
    | some (.stream _) => false
    | some _ => true
    | none => false
  | "-p" => return match device with
    | some (.stream n) => n != 0
    | _ => false
  | "-b" => return false
  | "-u" => return false
  | "-g" => return false
  | "-k" => return false
  | "-h" => return false
  | "-L" => return false
  | "-S" => return false
  | _ => return isThere

mutual

/-- Evaluate conditions joined by `-o`; the first argument has been looked at. -/
def either (d : Disk) (here : Place) : Nat → ConditionToken → Weighing Bool
  | 0, _ => return false
  | fuel + 1, t => do
    let a ← both d here fuel t
    if (← look 1) == .or then
      advance 2
      let b ← either d here fuel (← look 0)
      return a || b
    else return a

/-- Evaluate conditions joined by `-a`. -/
def both (d : Disk) (here : Place) : Nat → ConditionToken → Weighing Bool
  | 0, _ => return false
  | fuel + 1, t => do
    let a ← negated d here fuel t
    if (← look 1) == .and then
      advance 2
      let b ← both d here fuel (← look 0)
      return a && b
    else return a

/-- Evaluate a condition that may be negated. -/
def negated (d : Disk) (here : Place) : Nat → ConditionToken → Weighing Bool
  | 0, _ => return false
  | fuel + 1, t => do
    if t != .not then primary d here fuel t
    else
      let next ← look 1
      if next != .end then advance 1
      return !(← negated d here fuel next)

/-- Evaluate a comparison, a question, or a condition in parentheses. -/
def primary (d : Disk) (here : Place) : Nat → ConditionToken → Weighing Bool
  | 0, _ => return false
  | fuel + 1, t => do
    match t with
    | .end => return false
    | .parenOpen =>
      advance 1
      let inner ← look 0
      if inner == .parenClose then return false
      let b ← either d here fuel inner
      advance 1
      if (← look 0) != .parenClose then throw .parenExpected
      return b
    | .question op =>
      advance 1
      match ← current with
      | none => throw (.argumentExpected op)
      | some a => ask d here op a
    | _ =>
      let a := (← current).getD ""
      match ← look 1 with
      | .comparison op =>
        advance 2
        match ← current with
        | none => throw (.argumentExpected op)
        | some b => compare d here a op b
      | _ => return !a.isEmpty

end

end Weighing

/-- Evaluate a condition whose first argument has been looked at; all arguments must have been used. -/
def weigh (d : Disk) (here : Place) (t : ConditionToken) (args : List String) : Except ConditionFlaw Bool := do
  let (b, rest) ← (Weighing.either d here (4 * args.length + 8) t).run args
  match rest with
  | s :: _ :: _ => throw (.unexpectedOperator s)
  | _ => return b

/-- Whether a condition holds. Three or four arguments are told apart by their number first. -/
def holds (d : Disk) (here : Place) : Nat → Bool → List String → Except ConditionFlaw Bool
  | 0, _, _ => .ok false
  | _ + 1, negates, [] => .ok negates
  | fuel + 1, negates, args => do
    let finish (t : ConditionToken) (args : List String) : Except ConditionFlaw Bool :=
      return (← weigh d here t args) != negates
    let short := args.length == 3 || args.length == 4
    let second := (args[1]?).getD ""
    if args.length == 3 && ConditionToken.isComparison second then finish .operand args
    else if short && args.head? == some "(" && args.getLast? == some ")" then
      let inner := args.tail.dropLast
      finish (.ofArgs inner) inner
    else if short && args.head? == some "!" then holds d here fuel true args.tail
    else finish (.ofArgs args) args

end BoundaryProxy.Shell
