/-!
# `BoundaryProxy.Host.ExitStatus` — how a program ended

A program ends by itself with a number or is ended by a signal, which may leave an image of its memory behind.
-/

namespace BoundaryProxy.Host

/-- How a program ended. -/
inductive ExitStatus where
  | exited (code : Nat)
  | signalled (signal : Nat) (dumped : Bool)
deriving Repr, DecidableEq

namespace ExitStatus

/-- The names of the signals from 1 on. -/
def signalNames : List String :=
  ["SIGHUP", "SIGINT", "SIGQUIT", "SIGILL", "SIGTRAP", "SIGABRT", "SIGBUS", "SIGFPE", "SIGKILL", "SIGUSR1",
    "SIGSEGV", "SIGUSR2", "SIGPIPE", "SIGALRM", "SIGTERM", "SIGSTKFLT", "SIGCHLD", "SIGCONT", "SIGSTOP",
    "SIGTSTP", "SIGTTIN", "SIGTTOU", "SIGURG", "SIGXCPU", "SIGXFSZ", "SIGVTALRM", "SIGPROF", "SIGWINCH",
    "SIGIO", "SIGPWR", "SIGSYS"]

/-- The name of a signal, if it has one. -/
def signalName? : Nat → Option String
  | 0 => none
  | n + 1 => signalNames[n]?

/-- Whether the program succeeded. -/
def isSuccess (s : ExitStatus) : Bool :=
  s == .exited 0

/-- The status in words. -/
def text : ExitStatus → String
  | exited code => s!"exit status: {code}"
  | signalled signal dumped =>
    let name := ((signalName? signal).map fun name => s!" ({name})").getD ""
    let core := if dumped then " (core dumped)" else ""
    s!"signal: {signal}{name}{core}"

end ExitStatus

end BoundaryProxy.Host
