import BoundaryProxy.Shell.Integer
import BoundaryProxy.Shell.Process

/-!
# `BoundaryProxy.Shell.Builtin.Option` — what the commands of the shell are given

The options and numbers among the arguments of a command. What is wrong with them is a failure of the command.
-/

namespace BoundaryProxy.Shell

/-- The letters of one argument with their values, and a letter whose value must be the next argument. A letter
    takes a value where `valid` says so; the value is what stands behind it, if anything does. -/
def optionLettersOf (valid : List (Char × Bool)) :
    List Char → Action (List (Char × String) × Option Char)
  | [] => return ([], none)
  | c :: letters => do
    match valid.lookup c with
    | none => fail s!"Illegal option -{c}"
    | some false =>
      let (found, pending) ← optionLettersOf valid letters
      return ((c, "") :: found, pending)
    | some true =>
      if letters.isEmpty then return ([], some c) else return ([(c, String.ofList letters)], none)

/-- The options at the front of arguments, with their values, and the arguments behind them. -/
def builtinOptions (valid : List (Char × Bool)) :
    List String → Action (List (Char × String) × List String)
  | [] => return ([], [])
  | arg :: rest => do
    match arg.toList with
    | ['-', '-'] => return ([], rest)
    | '-' :: c :: letters =>
      let (found, pending) ← optionLettersOf valid (c :: letters)
      match pending, rest with
      | none, rest =>
        let (more, rest) ← builtinOptions valid rest
        return (found ++ more, rest)
      | some c, value :: rest =>
        let (more, rest) ← builtinOptions valid rest
        return (found ++ (c, value) :: more, rest)
      | some c, [] => fail s!"No arg for -{c} option"
    | _ => return ([], arg :: rest)

/-- The arguments of a command that has no options. -/
def operandsOf (args : List String) : Action (List String) :=
  return (← builtinOptions [] args).2

/-- Refuse an argument that should be a number. -/
def refuseNumber {α : Type} (s : String) : Action α :=
  fail s!"Illegal number: {s}"

/-- The number that an argument is. -/
def numberOf (s : String) : Action Nat := do
  match wholeInteger? false s.toList with
  | some n => if n < 0 || 2147483647 < n then refuseNumber s else return n.toNat
  | none => refuseNumber s

/-- A text between single quotes. A run of single quotes in it is put between double quotes. -/
def quotedText (s : String) : String :=
  String.ofList (quoted s.length s.toList)
where
  /-- The characters of a quoted text. -/
  quoted : Nat → List Char → List Char
    | 0, _ => ['\'', '\'']
    | fuel + 1, s =>
      let bare := s.takeWhile (· != '\'')
      let rest := s.drop bare.length
      let quotes := rest.takeWhile (· == '\'')
      let head := '\'' :: bare ++ ['\'']
      if quotes.isEmpty then head
      else
        let tail := rest.drop quotes.length
        head ++ '"' :: quotes ++ '"' :: (if tail.isEmpty then [] else quoted fuel tail)

end BoundaryProxy.Shell
