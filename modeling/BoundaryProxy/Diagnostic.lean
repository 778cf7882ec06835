/-!
# `BoundaryProxy.Diagnostic` — what a run reports besides its result

A diagnostic has a severity, a message and, for the conditions that users look up, a code. The conditions
themselves are values of the module in which they arise; each turns into one diagnostic.
-/

namespace BoundaryProxy

/-- How much a diagnostic matters. -/
inductive Severity where
  | note
  | warning
  | error
deriving Repr, DecidableEq

namespace Severity

/-- The name of a severity. -/
def text : Severity → String
  | note => "note"
  | warning => "warning"
  | error => "error"

/-- The level at which a log records a severity. -/
def logLevel : Severity → String
  | note => "INFO"
  | warning => "WARN"
  | error => "ERROR"

/-- Severities in ascending order. -/
def rank : Severity → Nat
  | note => 0
  | warning => 1
  | error => 2

/-- The graver of two severities. -/
def graver (s t : Severity) : Severity :=
  if s.rank < t.rank then t else s

end Severity

/-- The conditions that have a code. -/
inductive DiagnosticCode where
  | outParamRejected
  | outParamDiscarded
  | sequenceLeak
  | eventsUnsupported
  | registrySkipped
  | compilerOutput
deriving Repr, DecidableEq

/-- A code as it is printed. -/
def DiagnosticCode.text : DiagnosticCode → String
  | outParamRejected => "PG0001"
  | outParamDiscarded => "PG0002"
  | sequenceLeak => "PG0003"
  | eventsUnsupported => "PG0004"
  | registrySkipped => "PG0005"
  | compilerOutput => "PG0100"

/-- One report. -/
structure Diagnostic where
  severity : Severity
  code : Option DiagnosticCode := none
  message : String
deriving Repr, DecidableEq

namespace Diagnostic

/-- Whether the diagnostic is an error. -/
def isError (d : Diagnostic) : Bool :=
  d.severity == .error

/-- The severity and, in brackets, the code. -/
def label (d : Diagnostic) : String :=
  match d.code with
  | some code => s!"{d.severity.text}[{code.text}]"
  | none => d.severity.text

/-- The diagnostic on one line. -/
def text (d : Diagnostic) : String :=
  s!"{d.label}: {d.message}"

/-- A character as a log writes it: one that a terminal would take for a command is written as its number, by
    two digits where it is below 128 and in braces otherwise. -/
def loggedChar (c : Char) : List Char :=
  let n := c.toNat
  let digits := Nat.toDigits 16 n
  if n == 7 || n == 8 || n == 12 || n == 27 || n == 127 then
    '\\' :: 'x' :: (List.replicate (2 - digits.length) '0' ++ digits)
  else if 128 ≤ n && n < 160 then '\\' :: 'u' :: '\x7b' :: (digits ++ ['\x7d'])
  else [c]

/-- The diagnostic as a log records it: the level, the message and the code, `-` when there is none. -/
def logLine (d : Diagnostic) : String :=
  let code := (d.code.map DiagnosticCode.text).getD "-"
  s!"{d.severity.logLevel} {String.ofList (d.message.toList.flatMap loggedChar)} code=\"{code}\""

end Diagnostic

end BoundaryProxy
