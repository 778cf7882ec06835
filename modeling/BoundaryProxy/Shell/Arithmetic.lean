import BoundaryProxy.Shell.Integer
import BoundaryProxy.Shell.Process

/-!
# `BoundaryProxy.Shell.Arithmetic` — values of arithmetic expressions

Expressions over words of 64 bits and names of variables with the operators of C, assignments included. An
expression is read and evaluated at once. An operand that does not count — after `&&` when the left side is
zero, for instance — is read but not evaluated.
-/

namespace BoundaryProxy.Shell.Arithmetic

/-- An operator with two operands. -/
inductive BinaryOp where
  | mul
  | div
  | rem
  | add
  | sub
  | shiftLeft
  | shiftRight
  | less
  | lessEq
  | greater
  | greaterEq
  | equal
  | notEqual
  | bitAnd
  | bitXor
  | bitOr
deriving Repr, DecidableEq

/-- How loosely an operator binds. -/
def BinaryOp.looseness : BinaryOp → Nat
  | mul => 0
  | div => 0
  | rem => 0
  | add => 1
  | sub => 1
  | shiftLeft => 2
  | shiftRight => 2
  | less => 3
  | lessEq => 3
  | greater => 3
  | greaterEq => 3
  | equal => 4
  | notEqual => 4
  | bitAnd => 5
  | bitXor => 6
  | bitOr => 7

/-- More than the looseness of any operator. -/
def loosest : Nat := 8

/-- A token of an expression. -/
inductive Token where
  | number (n : Int)
  | name (s : String)
  | op (o : BinaryOp)
  /-- An assignment, with an operator between the old and the new value. -/
  | assign (o : Option BinaryOp)
  | both
  | either
  | not
  | complement
  | question
  | colon
  | parenOpen
  | parenClose
  | bad
  | end
deriving Repr, DecidableEq

/-! ## Tokens -/

/-- The signs of operators, longer ones before those that they begin with. -/
def signs : List (String × Token) :=
  [("<<=", .assign (some .shiftLeft)), (">>=", .assign (some .shiftRight)), ("<<", .op .shiftLeft),
    (">>", .op .shiftRight), ("<=", .op .lessEq), (">=", .op .greaterEq), ("==", .op .equal),
    ("!=", .op .notEqual), ("&&", .both), ("||", .either), ("*=", .assign (some .mul)),
    ("/=", .assign (some .div)), ("%=", .assign (some .rem)), ("+=", .assign (some .add)),
    ("-=", .assign (some .sub)), ("&=", .assign (some .bitAnd)), ("^=", .assign (some .bitXor)),
    ("|=", .assign (some .bitOr)), ("=", .assign none), ("<", .op .less), (">", .op .greater),
    ("*", .op .mul), ("/", .op .div), ("%", .op .rem), ("+", .op .add), ("-", .op .sub),
    ("&", .op .bitAnd), ("^", .op .bitXor), ("|", .op .bitOr), ("!", .not), ("~", .complement),
    ("?", .question), (":", .colon), ("(", .parenOpen), (")", .parenClose)]

/-- The token that a text begins with and the text after it. -/
def nextToken (s : List Char) : Token × List Char :=
  let s := s.dropWhile fun c => c == ' ' || c == '\t' || c == '\n'
  match s with
  | [] => (.end, [])
  | c :: _ =>
    if c.isDigit then
      match readNumber true s with
      | some n => (.number n.value, n.rest)
      | none => (.bad, s)
    else if isNameStart c then
      let name := s.takeWhile isNameChar
      (.name (String.ofList name), s.drop name.length)
    else
      match signs.find? fun (sign, _) => sign.toList.isPrefixOf s with
      | some (sign, t) => (t, s.drop sign.length)
      | none => (.bad, s)

/-- The tokens of a text up to one that is none. -/
def tokens : Nat → List Char → List Token
  | 0, _ => []
  | fuel + 1, s =>
    match nextToken s with
    | (.end, _) => []
    | (.bad, _) => [.bad]
    | (t, r) => t :: tokens fuel r

/-! ## Values -/

/-- A truth value as a number. -/
def ofBool (b : Bool) : Int :=
  if b then 1 else 0

/-- An operator on the bits of two words. -/
def onBits (f : Nat → Nat → Nat) (a b : Int) : Int :=
  wrapped (f (unsignedWord a) (unsignedWord b))

/-- The value of an operator; `none` is a division by zero. -/
def BinaryOp.apply (o : BinaryOp) (a b : Int) : Option Int :=
  let shift := (b % 64).toNat
  match o with
  | mul => some (wrapped (a * b))
  | div => if b == 0 then none else some (wrapped (a.tdiv b))
  | rem => if b == 0 then none else some (wrapped (a.tmod b))
  | add => some (wrapped (a + b))
  | sub => some (wrapped (a - b))
  | shiftLeft => some (wrapped (a * (Nat.pow 2 shift : Nat)))
  | shiftRight => some (a.fdiv (Nat.pow 2 shift : Nat))
  | less => some (ofBool (a < b))
  | lessEq => some (ofBool (a ≤ b))
  | greater => some (ofBool (a > b))
  | greaterEq => some (ofBool (a ≥ b))
  | equal => some (ofBool (a == b))
  | notEqual => some (ofBool (a != b))
  | bitAnd => some (onBits Nat.land a b)
  | bitXor => some (onBits Nat.xor a b)
  | bitOr => some (onBits Nat.lor a b)

/-- An expression that is being evaluated: its text, for complaints, and the tokens that are left. -/
structure Reading where
  source : String
  rest : List Token

/-- A step of evaluating an expression. -/
abbrev Eval := StateT Reading Action

/-- Complain about the expression. -/
def refuse {α : Type} (reason : String) : Eval α := do
  let source := (← StateT.get).source
  StateT.lift (fail s!"arithmetic expression: {reason}: \"{source}\"")

/-- The next token. -/
def peek : Eval Token :=
  return (← StateT.get).rest.head?.getD .end

/-- Read the next token. -/
def take : Eval Token := do
  let t ← peek
  modifyThe Reading fun r => { r with rest := r.rest.tail }
  return t

/-- The value of a variable as a number; a missing one is zero. -/
def valueOf (name : String) : Eval Int :=
  StateT.lift do
    let text := ((← process).valueOf? name).getD ""
    if text.toList.all isSpaceByte then return 0
    else
      match wholeInteger? true text.toList with
      | some n => return n
      | none => fail s!"Illegal number: {text}"

/-- The value of an operator. -/
def compute (o : BinaryOp) (a b : Int) : Eval Int :=
  match o.apply a b with
  | some n => return n
  | none => refuse "division by zero"

mutual

/-- Read an assignment, or an expression without one at its head. -/
def assignment : Nat → Bool → Eval Int
  | 0, _ => StateT.lift (throw .exhausted)
  | fuel + 1, counts => do
    match (← StateT.get).rest with
    | .name name :: .assign o :: rest =>
      modifyThe Reading fun r => { r with rest }
      let n ← assignment fuel counts
      if !counts then return n
      let n ← match o with
        | none => pure n
        | some o => do compute o (← valueOf name) n
      StateT.lift (Shell.assign name (toString n))
      return n
    | _ => conditional fuel counts

/-- Read an expression with `?` and `:`, or one that binds more tightly. -/
def conditional : Nat → Bool → Eval Int
  | 0, _ => StateT.lift (throw .exhausted)
  | fuel + 1, counts => do
    let a ← disjunction fuel counts
    if (← peek) != .question then return a
    else
      let _ ← take
      let b ← assignment fuel (counts && a != 0)
      if (← peek) != .colon then refuse "expecting ':'"
      let _ ← take
      let c ← conditional fuel (counts && a == 0)
      return if a != 0 then b else c

/-- Read operands of `||`. -/
def disjunction : Nat → Bool → Eval Int
  | 0, _ => StateT.lift (throw .exhausted)
  | fuel + 1, counts => do
    let a ← conjunction fuel counts
    if (← peek) != .either then return a
    else
      let _ ← take
      let b ← disjunction fuel (counts && a == 0)
      return ofBool (a != 0 || b != 0)

/-- Read operands of `&&`. -/
def conjunction : Nat → Bool → Eval Int
  | 0, _ => StateT.lift (throw .exhausted)
  | fuel + 1, counts => do
    let a ← operation fuel counts loosest
    if (← peek) != .both then return a
    else
      let _ ← take
      let b ← conjunction fuel (counts && a != 0)
      return ofBool (a != 0 && b != 0)

/-- Read operands of operators that bind more tightly than a limit. -/
def operation : Nat → Bool → Nat → Eval Int
  | 0, _, _ => StateT.lift (throw .exhausted)
  | fuel + 1, counts, limit => do
    let a ← operand fuel counts
    operationFrom fuel counts limit a

/-- Read the operators that follow a left operand and bind more tightly than a limit. -/
def operationFrom : Nat → Bool → Nat → Int → Eval Int
  | 0, _, _, _ => StateT.lift (throw .exhausted)
  | fuel + 1, counts, limit, a => do
    match ← peek with
    | .op o =>
      if o.looseness ≥ limit then return a
      else
        let _ ← take
        let b ← operation fuel counts o.looseness
        let n ← if counts then compute o a b else pure b
        operationFrom fuel counts limit n
    | _ => return a

/-- Read a number, a name, or an expression with a sign or in parentheses. -/
def operand : Nat → Bool → Eval Int
  | 0, _ => StateT.lift (throw .exhausted)
  | fuel + 1, counts => do
    match ← take with
    | .number n => return n
    | .name s => if counts then valueOf s else return 0
    | .op .add => operand fuel counts
    | .op .sub => return wrapped (-(← operand fuel counts))
    | .not => return ofBool ((← operand fuel counts) == 0)
    | .complement => return -(← operand fuel counts) - 1
    | .parenOpen =>
      let n ← assignment fuel counts
      if (← take) != .parenClose then refuse "expecting ')'"
      return n
    | _ => refuse "expecting primary"

end

/-- The value of an expression. -/
def evaluate (s : String) : Action Int := do
  let text := s.toList
  let fuel := 16 * text.length + 16
  let reading : Reading := ⟨s, tokens (text.length + 1) text⟩
  let run : Eval Int := do
    let n ← assignment fuel true
    if (← peek) != .end then refuse "expecting EOF"
    return n
  return (← run.run reading).1

end BoundaryProxy.Shell.Arithmetic
