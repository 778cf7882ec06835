import BoundaryProxy.Shell.Expand
import BoundaryProxy.Shell.Quoting

/-!
# `BoundaryProxy.Shell.Redirect` — where a command reads and writes

The targets of all redirections of a command are expanded first; then the redirections are made one after the
other. When the command has ended, the descriptors are what they were.
-/

namespace BoundaryProxy.Shell

open Host

/-- A redirection of which the target is known. -/
inductive Redirection where
  | file (descriptor : Nat) (mode : OpenMode) (path : String)
  | duplicate (descriptor : Nat) (source : Option Nat)
  | document (descriptor : Nat) (number : Nat) (expands : Bool)
deriving Repr, DecidableEq

/-- The descriptor that is redirected. -/
def Redirection.descriptor : Redirection → Nat
  | file descriptor _ _ => descriptor
  | duplicate descriptor _ => descriptor
  | document descriptor _ _ => descriptor

/-- Give up on the target of a redirection that is to be a descriptor. The line of that flaw is the one up to
    which the script has been read, as it is for other flaws of its text. -/
def refuseDescriptor {α : Type} : Action α := do
  onProcess fun p => { p with line := p.readLine }
  fail "Syntax error: Bad fd number"

/-- Expand the target of a redirection. -/
def targetOf (capture : Capture) (fuel : Nat) : Redirect → Action Redirection
  | .file descriptor mode target => return .file descriptor mode (← wordText capture fuel .text target)
  | .duplicate descriptor target => do
    match (← wordText capture fuel .text target).toList with
    | ['-'] => return .duplicate descriptor none
    | [c] =>
      if c.isDigit then return .duplicate descriptor (some (c.toNat - '0'.toNat))
      else refuseDescriptor
    | _ => refuseDescriptor
  | .document descriptor number expands => return .document descriptor number expands

/-! ## Opening files -/

/-- Why a file cannot be opened, in the words of the shell. -/
def openReason (creates : Bool) (fault : IoFault) : String :=
  match fault with
  | .notFound => if creates then "Directory nonexistent" else "No such file"
  | .notDirectory => if creates then "Directory nonexistent" else "No such file"
  | fault => reasonOf fault

/-- What is opened at a place, in which something may be made first. -/
def openPlace (p : Place) (mode : OpenMode) : Action (Except IoFault Opened) := do
  let reads := mode == .input || mode == .inputOutput
  let o : Opened :=
    { target := .file p, appends := mode == .append, reads, writes := mode != .input }
  let d := (← world).disk
  match d.entry? p with
  | some .directory => return if mode == .input then .ok o else .error .isDirectory
  | some (.file _ executable) =>
    if mode == .output || mode == .overwrite then
      onWorld fun w => { w with disk := d.put p (.file [] executable) }
    return .ok o
  | none =>
    if mode == .input || !d.isDirectory p.dropLast then return .error .notFound
    onWorld fun w => { w with disk := d.put p (.file [] false) }
    return .ok o

/-- Open a place, where a device may stand. A device that stands for a descriptor leads to where that leads. -/
def openAt (p : Place) (mode : OpenMode) : Action (Except IoFault Opened) := do
  let reads := mode == .input || mode == .inputOutput
  let opened (target : Target) : Opened := { target, reads, writes := mode != .input }
  match Device.at? p with
  | none => openPlace p mode
  | some .terminal => return .error .noDevice
  | some (.stream n) =>
    match ← openedAt n with
    | none => return .error .notFound
    | some (_, o) =>
      match o.target with
      | .file q => openPlace q mode
      | target => return .ok (opened target)
  | some device => return .ok (opened (.device device))

/-- Open what a path leads to. -/
def openPath (path : String) (mode : OpenMode) : Action (Except IoFault Opened) := do
  let st ← get
  let d := st.world.disk
  let here := st.process.here
  match (if mode == .input then d.place here (decode path) else d.writePlace here (decode path)) with
  | .ok p => openAt p mode
  | .error fault => return .error fault

/-- What the option that keeps files from being overwritten makes of a path that is to be written. -/
inductive Protection where
  | none
  /-- What the path leads to is there, and is no file. -/
  | present
  | refused
deriving DecidableEq

/-- What protects a path that is opened. -/
def protectionOf (path : String) (mode : OpenMode) : Action Protection := do
  if mode != .output || !(← hasOption 'C') then return .none
  let st ← get
  match ← entryAt path with
  | some (.file ..) => return .refused
  | _ => return if st.world.disk.exists? st.process.here (decode path) then .present else .none

/-! ## Redirecting -/

/-- Make a redirection. -/
def redirect (capture : Capture) (fuel : Nat) : Redirection → Action Unit
  | .file descriptor mode path => do
    let protection ← protectionOf path mode
    if protection == .refused then fail s!"cannot create {path}: File exists"
    let creates := mode != .input && protection == .none
    match ← openPath path mode with
    | .ok o => openAs descriptor o
    | .error fault =>
      let what := if creates then "create" else "open"
      fail s!"cannot {what} {path}: {openReason creates fault}"
  | .duplicate descriptor none =>
    onProcess fun p => { p with descriptors := p.descriptors.filter (·.1 != descriptor) }
  | .duplicate descriptor (some source) => do
    match (← process).descriptors.lookup source with
    | some n =>
      onProcess fun p =>
        { p with descriptors := (descriptor, n) :: p.descriptors.filter (·.1 != descriptor) }
    | none => if descriptor != source then fail s!"{source}: Bad file descriptor"
  | .document descriptor number expands => do
    let body := ((← world).documents.lookup number).getD []
    let text ← if expands then wordText capture fuel .document body else pure (String.ofList (plainText body))
    let n ← newPipe
    onWorld fun w => { w with pipes := w.pipes.modify n fun _ => bytesOf text }
    openAs descriptor { target := .pipe n, reads := true }

/-- Make redirections one after the other; whether all of them could be made. -/
def redirectAll (capture : Capture) (fuel : Nat) (rs : List Redirection) : Action Bool :=
  tryCatch (do
    rs.forM (redirect capture fuel)
    return true) fun
    | .failed => return false
    | stop => throw stop

/-- What the descriptors of redirections lead to now. -/
def descriptorsOf (rs : List Redirection) : Action (List (Nat × Option Nat)) := do
  let p ← process
  return rs.map fun r => (r.descriptor, p.descriptors.lookup r.descriptor)

/-- Let descriptors lead to where they led. -/
def putDescriptorsBack (saved : List (Nat × Option Nat)) : Action Unit :=
  onProcess fun p =>
    { p with
      descriptors := saved.foldr (fun (descriptor, n) ds =>
        let others := ds.filter (·.1 != descriptor)
        match n with
        | some n => (descriptor, n) :: others
        | none => others) p.descriptors }

end BoundaryProxy.Shell
