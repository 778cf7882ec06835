import BoundaryProxy.Shell.Builtin.Basic
import BoundaryProxy.Shell.Reader
import BoundaryProxy.Shell.Redirect

/-!
# `BoundaryProxy.Shell.Call` — what a simple command calls

The words of a simple command are expanded up to the first field, which names what is called. That decides how
the other words are expanded. `command` calls what its operands name, but no function.
-/

namespace BoundaryProxy.Shell

open Host

/-- What a simple command calls. -/
structure Call where
  /-- The name and the arguments. -/
  fields : List String
  /-- The fields before them. -/
  before : List String := []
  /-- Whether it is a special command of the shell. -/
  special : Bool
  /-- Whether functions count. -/
  functions : Bool := true
  /-- Where programs are looked for, if not along the search path. -/
  path : Option String := none

/-- The fields of the first word that has any, and the words behind it. -/
def firstFields (capture : Capture) (fuel : Nat) : List Word → Action (List String × List Word)
  | [] => return ([], [])
  | w :: rest => do
    match ← wordFields capture fuel w with
    | [] => firstFields capture fuel rest
    | fields => return (fields, rest)

/-- The operands of `command`: all its arguments so far, the words that are left, and what is called, with
    whether the standard path counts. Nothing is called if there is no operand or an option asks for something
    else. -/
def commandOperands (capture : Capture) : Nat → List String → List String → List Word → Bool →
    Action (List String × List Word × Option (List String × Bool))
  | 0, _, _, _, _ => throw .exhausted
  | fuel + 1, seen, [], words, standard => do
    match ← firstFields capture fuel words with
    | ([], words) => return (seen, words, none)
    | (more, words) => commandOperands capture fuel seen more words standard
  | fuel + 1, seen, field :: fields, words, standard => do
    match field.toList with
    | ['-', '-'] =>
      let (fields, words) ← if fields.isEmpty then firstFields capture fuel words else pure (fields, words)
      return (seen ++ field :: fields, words, if fields.isEmpty then none else some (fields, standard))
    | '-' :: c :: letters =>
      if (c :: letters).all (· == 'p') then
        commandOperands capture fuel (seen ++ [field]) fields words true
      else return (seen ++ field :: fields, words, none)
    | _ => return (seen ++ field :: fields, words, some (field :: fields, standard))

/-- The fields of a word among the arguments of a command that takes assignments. -/
def argumentFields (capture : Capture) (fuel : Nat) (assigns : Bool) (w : Word) : Action (List String) := do
  if assigns && isAssignment w then return [← wordText capture fuel .assignment w]
  else wordFields capture fuel w

/-- What a command calls whose first fields are known. -/
def callFrom (capture : Capture) : Nat → Call → Option Bool → List Word → Action Call
  | 0, _, _, _ => throw .exhausted
  | fuel + 1, call, special, words => do
    let st ← get
    let path := call.path.getD st.process.searchPath
    let name := call.fields.head?.getD ""
    let finish (call : Call) (assigns : Bool) (words : List Word) : Action Call := do
      let more ← words.mapM (argumentFields capture fuel assigns)
      return { call with fields := call.fields ++ more.flatten }
    match meaningOf st.world.disk st.process call.functions path name with
    | .builtin traits =>
      let isSpecial := special.getD traits.special
      let call := { call with special := isSpecial }
      if name != "command" then finish call traits.assigns words
      else
        match ← commandOperands capture fuel [] (call.fields.drop 1) words false with
        | (fields, words, none) => finish { call with fields := name :: fields } false words
        | (fields, words, some (called, standard)) =>
          let before := call.before ++ name :: fields.take (fields.length - called.length)
          let path := if standard then some standardPath else call.path
          callFrom capture fuel { call with fields := called, before, functions := false, path } isSpecial words
    | _ => finish call false words

/-- What a simple command calls, if it calls anything. -/
def callOf (capture : Capture) (fuel : Nat) (words : List Word) : Action (Option Call) := do
  match ← firstFields capture fuel words with
  | ([], _) => return none
  | (fields, words) => return some (← callFrom capture fuel { fields, special := false } none words)

/-! ## Assignments -/

/-- Make an assignment before a command, which may last for that command only. -/
def assignBefore (restores exports : Bool) (text : String) : Action Unit := do
  let (name, value) := nameAndValue text
  if restores then keepVariable name
  setVariable name (some (value.getD "")) (restores || exports)

/-! ## Traces -/

/-- Write a line about a command that is run, as a trace, to where standard error led before. -/
def trace (capture : Capture) (fuel : Nat) (errors : Option Nat) (texts : List String) : Action Unit := do
  let sign := ((← process).valueOf? "PS4").getD ""
  let shown ← match Reader.quotedText.run { text := sign.toList } with
    | .ok w _ => wordText capture fuel .document w
    | .error .. => pure sign
  let line := shown ++ String.intercalate " " texts ++ "\n"
  match errors with
  | some n => let _ ← writeOpened n (bytesOf line)
  | none => return ()

end BoundaryProxy.Shell
