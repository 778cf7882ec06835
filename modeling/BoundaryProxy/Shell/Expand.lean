import BoundaryProxy.Shell.Arithmetic
import BoundaryProxy.Shell.Field

/-!
# `BoundaryProxy.Shell.Expand` — what the words of a command stand for

A word is expanded piece by piece: tildes, parameters, the output of commands and arithmetic. Where it stands
decides in which style: as an argument, which may become several fields or none; as a value, which is one text;
as a pattern; or as the text of a here-document.

How the output of a command is found is left open; it is a parameter of everything here.
-/

namespace BoundaryProxy.Shell

open Host

/-- What is to be known about the place where a word is expanded. -/
structure Style where
  /-- Whether the word may become several fields. -/
  splits : Bool := false
  quoted : Bool := false
  /-- Whether the word stands in place of a value, so that its own text is split too. -/
  inPlace : Bool := false
  /-- Whether a tilde at the start stands for a directory. -/
  homes : Bool := false
  /-- Whether tildes behind the first equals sign and behind colons do. -/
  assigns : Bool := false
  afterSign : Bool := false

namespace Style

/-- An argument. -/
def argument : Style :=
  { splits := true, homes := true }

/-- One text. -/
def text : Style :=
  { homes := true }

/-- An assignment. -/
def assignment : Style :=
  { assigns := true }

/-- The text of a here-document. -/
def document : Style :=
  { quoted := true }

end Style

/-- A word that is being expanded. -/
abbrev Expansion := StateT Expanded Action

/-- Finds the output of a command. -/
abbrev Capture := Command → Action (List UInt8)

namespace Expansion

/-- Do something with what has been expanded. -/
def change (f : Expanded → Expanded) : Expansion Unit :=
  modifyThe Expanded f

/-- How many marks there are. -/
def size : Expansion Nat :=
  return (← StateT.get).size

/-- What has been expanded since so many marks may be split, unless it is quoted. -/
def recordUnquoted (quoted : Bool) (start : Nat) : Expansion Unit :=
  if quoted then return () else change (·.record start)

end Expansion

/-! ## Tildes -/

/-- The name after a tilde: up to a slash, or to a colon in an assignment. There is none if something other
    than plain text comes before that. -/
def tildeName? (assigns followed : Bool) (s : List Char) : Option (List Char) :=
  let name := s.takeWhile fun c => c != '/' && !(assigns && c == ':')
  if followed && name.length == s.length then none else some name

/-- The marks of plain text, in which a tilde may stand for a directory where `begins` says so, and whether the
    equals sign of an assignment has been passed. -/
def tildeMarks (p : Process) (assigns followed : Bool) :
    Nat → (begins afterSign : Bool) → List Char → List Mark × Bool
  | 0, _, afterSign, _ => ([], afterSign)
  | _ + 1, _, afterSign, [] => ([], afterSign)
  | fuel + 1, begins, afterSign, c :: s =>
    let home : Option (List Char × String) := do
      let name ← if begins && c == '~' then tildeName? assigns followed s else none
      return (name, ← if name.isEmpty then p.valueOf? "HOME" else none)
    match home with
    | some (name, path) =>
      let (marks, afterSign) := tildeMarks p assigns followed fuel false afterSign (s.drop name.length)
      (path.toList.map (Mark.char · true) ++ marks, afterSign)
    | none =>
      let isSign := assigns && !afterSign && c == '='
      let goesOn := isSign || (assigns && c == ':')
      let (marks, afterSign) := tildeMarks p assigns followed fuel goesOn (afterSign || isSign) s
      (.char c false :: marks, afterSign)

/-! ## Values of parameters -/

/-- What is put between the arguments when they are expanded together. -/
def argumentSeparator (p : Process) (style : Style) (name : String) : List Mark :=
  if name == "@" && style.quoted && style.splits then [.boundary]
  else
    match p.valueOf? "IFS" with
    | none => [.char ' ' style.quoted]
    | some s =>
      if style.splits && !style.quoted then [.boundary]
      else (s.toList.take 1).map (Mark.char · style.quoted)

/-- The letters of the options that are set. -/
def Process.optionText (p : Process) : String :=
  String.ofList (optionLetters.reverse.filter p.options.contains)

/-- The value of a parameter that has one text. -/
def Process.param? (p : Process) (name : String) : Option String :=
  match name with
  | "$" => some (toString p.shellId)
  | "?" => some (toString p.status)
  | "#" => some (toString p.args.length)
  | "!" => p.background.map toString
  | "-" => some p.optionText
  | _ =>
    match decimal? name with
    | some 0 => some p.name
    | some (n + 1) => p.args[n]?
    | none => p.valueOf? name

/-- The marks of a parameter's value. -/
def Process.paramMarks? (p : Process) (style : Style) (name : String) : Option (List Mark) :=
  let marksOf (s : String) : List Mark := s.toList.map (Mark.char · style.quoted)
  if name == "@" || name == "*" then
    some ((argumentSeparator p style name).intercalate (p.args.map marksOf))
  else (p.param? name).map marksOf

/-- A value without what a pattern stands for at one of its ends. -/
def trimmed (p : Pattern) (use : ParamUse) (marks : List Mark) : List Mark :=
  let s := marks.map fun
    | .char c _ => c
    | _ => '\x00'
  match use with
  | .dropStart longest => marks.drop ((p.startLength? longest s).getD 0)
  | .dropEnd longest => marks.take ((p.endStart? longest s).getD s.length)
  | _ => marks

namespace Expansion

/-- The marks that a part of a word is expanded to by itself. -/
def apart (part : Expansion Unit) : Expansion (List Mark) :=
  StateT.lift do
    let (_, e) ← part.run {}
    return e.marks.toList

/-- What a missing parameter is said to be. -/
def complaintOf (emptyIsMissing : Bool) (word : Word) (marks : List Mark) : String :=
  if word.isEmpty then (if emptyIsMissing then "parameter not set or null" else "parameter not set")
  else textOf marks

/-- Expand a parameter. The words inside of it are expanded by `expand`. -/
def parameter (expand : Style → Word → Expansion Unit) (style : Style) (name : String) (use : ParamUse)
    (emptyIsMissing : Bool) (word : Word) : Expansion Unit := do
  let start ← size
  let p ← StateT.lift process
  let record : Expansion Unit :=
    if !style.quoted then change (·.record start)
    else if name == "@" && !p.args.isEmpty then change (·.record start true)
    else return ()
  let push (marks : List Mark) : Expansion Unit :=
    change fun e => { e with marks := e.marks ++ marks.toArray }
  let found := p.paramMarks? style name
  let isMissing := found.isNone || (emptyIsMissing && found == some [])
  let marks := found.getD []
  let inPlace : Style := { style with homes := true, inPlace := true }
  let strict : Expansion Unit := do
    if isMissing && p.options.contains 'u' then StateT.lift (fail s!"{name}: parameter not set")
  match use with
  | .malformed => StateT.lift (fail "Bad substitution")
  | .replace => if isMissing then record else expand inPlace word
  | .fallback =>
    if isMissing then expand inPlace word
    else
      push marks
      record
  | .require =>
    if isMissing then
      let marks ← apart (expand .text word)
      StateT.lift (fail s!"{name}: {complaintOf emptyIsMissing word marks}")
    else
      push marks
      record
  | .assign =>
    if isMissing then
      let marks ← apart (expand .text word)
      StateT.lift (assignChecked name (textOf marks))
    let p ← StateT.lift process
    push ((p.paramMarks? style name).getD [])
    record
  | .length =>
    strict
    push ((toString marks.length).toList.map (Mark.char · style.quoted))
    record
  | .value =>
    strict
    push marks
    record
  | _ =>
    strict
    if !isMissing then
      let pattern := Pattern.ofWord (markedText (← apart (expand .text word)))
      push (trimmed pattern use marks)
      record

/-- Expand text that stands in a word as it is. -/
def plain (style : Style) (inQuotes followed escaped : Bool) (s : List Char) : Expansion Style := do
  let start ← size
  let p ← StateT.lift process
  let (marks, afterSign) :=
    if escaped then (s.map (Mark.char · true), style.afterSign)
    else tildeMarks p style.assigns followed (s.length + 1) style.homes style.afterSign s
  change fun e => { e with marks := e.marks ++ marks.toArray }
  if style.inPlace && !style.quoted && !inQuotes && !escaped then
    let home := marks.takeWhile fun
      | .char _ escaped => escaped
      | _ => false
    change (·.record (start + home.length))
  return { style with homes := false, afterSign }

/-- Expand the pieces of a word. All arguments in quotes of their own are fields of their own, of which there
    may be none. -/
def pieces (capture : Capture) : Nat → Style → Bool → Word → Expansion Unit
  | 0, _, _, _ => StateT.lift (throw .exhausted)
  | _ + 1, _, _, [] => return ()
  | fuel + 1, style, inQuotes, piece :: rest => do
    let expand (style : Style) (w : Word) : Expansion Unit := pieces capture fuel style false w
    let inner : Style := { style with homes := false }
    let here : Style := { inner with quoted := style.quoted || inQuotes }
    match piece with
    | .text s escaped =>
      let next ← plain style inQuotes (!rest.isEmpty) escaped s
      pieces capture fuel next inQuotes rest
    | .quote =>
      match inQuotes, rest with
      | false, .param "@" .value false [] :: .quote :: rest =>
        parameter expand { inner with quoted := true } "@" .value false []
        pieces capture fuel inner false rest
      | _, _ =>
        change (·.push .quote)
        pieces capture fuel inner (!inQuotes) rest
    | .param name use emptyIsMissing word =>
      parameter expand here name use emptyIsMissing word
      pieces capture fuel inner inQuotes rest
    | .output body =>
      let start ← size
      let bytes ← StateT.lift (capture body)
      let text := ofBytes (bytes.filter (· != 0))
      let text := (text.reverse.dropWhile (· == '\n')).reverse
      change (·.pushText text here.quoted)
      recordUnquoted here.quoted start
      pieces capture fuel inner inQuotes rest
    | .arithmetic body =>
      let marks ← apart (expand {} body)
      let start ← size
      let n ← StateT.lift (Arithmetic.evaluate (textOf marks))
      change (·.pushText (toString n).toList here.quoted)
      recordUnquoted here.quoted start
      pieces capture fuel inner inQuotes rest

end Expansion

/-! ## Words in their places -/

/-- Expand a word. -/
def expandWord (capture : Capture) (fuel : Nat) (style : Style) (w : Word) : Action Expanded := do
  let (_, e) ← (Expansion.pieces capture fuel style false w).run {}
  return e

/-- The text that a word stands for where it is not split. -/
def wordText (capture : Capture) (fuel : Nat) (style : Style) (w : Word) : Action String :=
  return (← expandWord capture fuel style w).text

/-- The pattern that a word stands for. -/
def wordPattern (capture : Capture) (fuel : Nat) (w : Word) : Action Pattern :=
  return .ofWord (markedText (← expandWord capture fuel .text w).marks.toList)

/-- The texts that an argument stands for. -/
def wordFields (capture : Capture) (fuel : Nat) (w : Word) : Action (List String) := do
  let e ← expandWord capture fuel .argument w
  let st ← get
  let p := st.process
  return (e.fields p.separators none).flatMap (fieldTexts st.world.disk p.here (!p.options.contains 'f'))

/-- The texts that arguments stand for. -/
def wordsFields (capture : Capture) (fuel : Nat) (ws : List Word) : Action (List String) :=
  return (← ws.mapM (wordFields capture fuel)).flatten

end BoundaryProxy.Shell
