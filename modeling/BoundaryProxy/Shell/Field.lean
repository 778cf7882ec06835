import BoundaryProxy.Host.Disk
import BoundaryProxy.Shell.ByteText
import BoundaryProxy.Shell.Pattern

/-!
# `BoundaryProxy.Shell.Field` — from expanded words to fields

Expanding a word gives marks, and the regions of them that came out of unquoted expansions. Only in those
regions a word is split into fields. A field with unescaped signs of a pattern becomes the names of the files
that it stands for, if there are any.
-/

namespace BoundaryProxy.Shell

open Host

/-- A mark of an expanded word. -/
inductive Mark where
  | char (c : Char) (escaped : Bool)
  /-- A quote: with it even a field without characters counts. -/
  | quote
  /-- The end of one of several values that are fields of their own. -/
  | boundary
deriving Repr, DecidableEq, Inhabited

/-- A part of an expanded word that may be split. -/
structure Region where
  start : Nat
  stop : Nat
  /-- Whether it is split at boundaries alone. -/
  atBoundaries : Bool
deriving Repr, DecidableEq

/-- A word as far as it has been expanded. -/
structure Expanded where
  marks : Array Mark := #[]
  regions : Array Region := #[]
deriving Repr, Inhabited

/-! ## Texts of marks -/

/-- The characters of marks. -/
def markedText (marks : List Mark) : List Marked :=
  marks.filterMap fun
    | .char c escaped => some (c, escaped)
    | _ => none

/-- The text of marks. -/
def textOf (marks : List Mark) : String :=
  String.ofList ((markedText marks).map (·.1))

namespace Expanded

/-- How many marks there are. -/
def size (e : Expanded) : Nat :=
  e.marks.size

/-- Add a mark. -/
def push (e : Expanded) (m : Mark) : Expanded :=
  { e with marks := e.marks.push m }

/-- Add the characters of a text. -/
def pushText (e : Expanded) (s : List Char) (escaped : Bool) : Expanded :=
  { e with marks := e.marks ++ (s.map fun c => Mark.char c escaped).toArray }

/-- The part from a mark on may be split. -/
def record (e : Expanded) (start : Nat) (atBoundaries : Bool := false) : Expanded :=
  { e with regions := e.regions.push ⟨start, e.size, atBoundaries⟩ }

/-- The text of all marks. -/
def text (e : Expanded) : String :=
  textOf e.marks.toList

end Expanded

/-! ## Splitting -/

/-- The blanks that separate fields without limiting them. -/
def isFieldBlank (c : Char) : Bool :=
  c == ' ' || c == '\t' || c == '\n'

/-- How a word is being split. -/
structure Splitting where
  /-- Where the current field starts. -/
  start : Nat := 0
  /-- The fields so far, the last one first. -/
  done : List (Nat × Nat) := []
  /-- Whether the separator that was read last is a blank. -/
  blank : Bool := false
  /-- Whether the separators after a field are being skipped. -/
  skipping : Bool := false
  /-- How many fields may still be split off, if there is a limit. -/
  limit : Option Nat := none
  /-- Where the separators begin that do not count at the end of the last field. -/
  cut : Option Nat := none
  /-- Whether the region, and whether the one before it, is split at boundaries alone. -/
  atBoundaries : Bool := false
  afterBoundaries : Bool := false

namespace Splitting

/-- Whether a mark separates fields, and whether it does so as a blank. -/
def separates (separators : List Char) (atBoundaries : Bool) : Mark → Bool × Bool
  | .char c _ => if !atBoundaries && separators.contains c then (true, isFieldBlank c) else (false, false)
  | .quote => (false, false)
  | .boundary => (true, true)

/-- Go on at a mark where no separators are being skipped. -/
def atMark (s : Splitting) (i : Nat) (isSeparator isBlank : Bool) : Splitting :=
  if s.limit == some 0 then
    if isBlank then { s with cut := some (s.cut.getD i) }
    else { s with cut := if isSeparator && s.blank then s.cut else none, blank := false }
  else if !isSeparator then s
  else
    let blank := if s.afterBoundaries || s.atBoundaries then s.blank else isBlank
    if s.start == i && blank then { s with start := i + 1, blank := false }
    else
      let limit := s.limit.map (· - 1)
      if limit == some 0 then { s with blank, limit, cut := some i }
      else
        { s with blank, limit, done := (s.start, i) :: s.done, start := i + 1, skipping := !s.atBoundaries }

/-- Go on at a mark. -/
def step (separators : List Char) (s : Splitting) (i : Nat) (m : Mark) : Splitting :=
  let (isSeparator, isBlank) := separates separators s.atBoundaries m
  if !s.skipping then s.atMark i isSeparator isBlank
  else if !isSeparator then { s with skipping := false, start := i }
  else if isBlank then { s with start := i + 1 }
  else if s.blank then { s with blank := false, start := i + 1 }
  else { s with skipping := false, start := i : Splitting }.atMark i isSeparator isBlank

/-- Go on through a region. -/
def region (separators : List Char) (marks : Array Mark) (s : Splitting) (r : Region) : Splitting :=
  let s :=
    { s with
      afterBoundaries := s.atBoundaries
      atBoundaries := r.atBoundaries
      blank := false
      skipping := false }
  (List.range' r.start (r.stop - r.start)).foldl (fun s i => s.step separators i (marks[i]?.getD .quote)) s

end Splitting

/-- Split an expanded word into fields; the last one of a limited number takes all that is left. -/
def Expanded.fields (separators : List Char) (limit : Option Nat) (e : Expanded) : List (List Mark) :=
  let s := e.regions.foldl (Splitting.region separators e.marks) { limit }
  let stop := s.cut.getD e.size
  let last := if s.atBoundaries || s.start < stop then [(s.start, if s.atBoundaries then e.size else stop)] else []
  (s.done.reverse ++ last).map fun (start, stop) => (e.marks.extract start stop).toList

/-! ## Names of files -/

/-- The parts of a word between slashes. -/
def pathParts (w : List Marked) : List (List Marked) :=
  w.foldr (fun x parts =>
    if x.1 == '/' then [] :: parts
    else
      match parts with
      | part :: rest => (x :: part) :: rest
      | [] => [[x]]) [[]]

/-- The paths that the parts of a word stand for, after the path before them. -/
def matchParts (d : Disk) (here : Place) (before : String) : List (List Marked) → List String
  | [] => if d.exists? here (decode before) then [before] else []
  | part :: rest =>
    let pattern := Pattern.ofWord part
    let isLast := rest.isEmpty
    let extend (name : String) : List String :=
      matchParts d here (before ++ name ++ (if isLast then "" else "/")) rest
    if pattern.hasSigns then
      match d.place here (if before.isEmpty then "." else decode before) with
      | .error _ => []
      | .ok p =>
        if !d.isDirectory p then []
        else
          let showsDots := pattern.head? == some (.exactly '.')
          let names := (if showsDots then [".", ".."] else []) ++ (d.list p).map encode
          (names.filter fun name =>
            pattern.accepts name.toList && (name.toList.head? != some '.' || showsDots)).flatMap extend
    else extend (String.ofList ((withoutBackslashes part).map (·.1)))

/-- The texts a field stands for: the files that match it, or itself. -/
def fieldTexts (d : Disk) (here : Place) (matchesFiles : Bool) (field : List Mark) : List String :=
  let itself := [textOf field]
  let w := markedText field
  if matchesFiles && (Pattern.ofWord w).hasSigns then
    match matchParts d here "" (pathParts w) with
    | [] => itself
    | paths => paths.mergeSort fun a b => a ≤ b
  else itself

end BoundaryProxy.Shell
