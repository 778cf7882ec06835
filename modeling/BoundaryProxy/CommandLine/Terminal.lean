import BoundaryProxy.Diagnostic

/-!
# `BoundaryProxy.CommandLine.Terminal` — what is written where, and in which colours

Results go to standard output and reports to standard error. Where colours are on, each styled text is set
between escape sequences of its own; where they are off nothing but the text is written.
-/

namespace BoundaryProxy.CommandLine

/-- The colours that are used. -/
inductive Color where
  | red
  | green
  | yellow
  | cyan
deriving Repr, DecidableEq

/-- The number of a colour in an escape sequence. -/
def Color.number : Color → Nat
  | red => 31
  | green => 32
  | yellow => 33
  | cyan => 36

/-- A style of text. -/
structure Style where
  bold : Bool := false
  color : Option Color := none
deriving Repr, DecidableEq

namespace Style

/-- The style of what a command has done. -/
def success : Style := ⟨true, some .green⟩

/-- The style of paths. -/
def info : Style := ⟨false, some .cyan⟩

/-- The style of headings. -/
def heading : Style := ⟨true, none⟩

/-- The style of the label of a diagnostic. -/
def label : Severity → Style
  | .error => ⟨true, some .red⟩
  | .warning => ⟨true, some .yellow⟩
  | .note => ⟨true, some .cyan⟩

/-- The sequence that ends all styles. -/
def reset : String := "\x1b[0m"

/-- The sequences that begin a style. -/
def start (s : Style) : String :=
  let bold := if s.bold then "\x1b[1m" else ""
  match s.color with
  | some c => s!"{reset}{bold}\x1b[{c.number}m"
  | none => reset ++ bold

/-- A text in a style, if colours are on. -/
def paint (s : Style) (colored : Bool) (text : String) : String :=
  if colored then s.start ++ text ++ reset else text

end Style

/-- Whether colours are on: never if the environment forbids them; otherwise as the user says, and if the
    user does not say, wherever the terminal is not a dumb one. -/
def usesColor (environment : List (String × String)) (choice : Option String) : Bool :=
  if (environment.lookup "NO_COLOR").isSome then false
  else if choice == some "always" then true
  else if choice == some "never" then false
  else
    match environment.lookup "TERM" with
    | some terminal => terminal != "dumb"
    | none => false

/-- What has been written, and what has been counted on the way. -/
structure Terminal where
  colored : Bool
  stdout : String := ""
  stderr : String := ""
  errors : Nat := 0
  warnings : Nat := 0
deriving Repr

namespace Terminal

/-- Write a result. -/
def print (t : Terminal) (text : String) : Terminal :=
  { t with stdout := t.stdout ++ text }

/-- Write a text to where reports go. -/
def complain (t : Terminal) (text : String) : Terminal :=
  { t with stderr := t.stderr ++ text }

/-- Write a result in a style. -/
def printStyled (t : Terminal) (style : Style) (text : String) : Terminal :=
  t.print (style.paint t.colored text)

/-- Write a diagnostic and count it. -/
def report (t : Terminal) (d : Diagnostic) : Terminal :=
  let line := (Style.label d.severity).paint t.colored d.label ++ s!": {d.message}\n"
  { t with
    stderr := t.stderr ++ line
    errors := t.errors + (if d.severity == .error then 1 else 0)
    warnings := t.warnings + (if d.severity == .warning then 1 else 0) }

/-- Write how many errors and warnings there were, if there were any. -/
def summarize (t : Terminal) : Terminal :=
  if t.errors == 0 && t.warnings == 0 then t
  else
    let line := s!"{t.errors} error(s), {t.warnings} warning(s)\n"
    { t with stderr := t.stderr ++ Style.heading.paint t.colored line }

end Terminal

end BoundaryProxy.CommandLine
