/-!
# `BoundaryProxy.Host.Device` — files that are no files

A few names below `/dev` lead to devices. They stand at fixed places, on every disk; what is written to one
never changes the disk.
-/

namespace BoundaryProxy.Host

/-- The names on the way from the root to a place. -/
abbrev Place := List String

/-- What a device does with what is written to it. -/
inductive Device where
  /-- It takes everything and is empty when it is read. -/
  | null
  /-- It takes nothing. -/
  | full
  /-- It stands for a terminal, of which there is none. -/
  | terminal
  /-- It stands for one of the descriptors that a program was started with. -/
  | stream (descriptor : Nat)
deriving Repr, DecidableEq

namespace Device

/-- The device that a name in the directory of devices leads to. -/
def ofName? : String → Option Device
  | "null" => some null
  | "zero" => some null
  | "full" => some full
  | "tty" => some terminal
  | "stdin" => some (stream 0)
  | "stdout" => some (stream 1)
  | "stderr" => some (stream 2)
  | _ => none

/-- The device at a place. -/
def at? : Place → Option Device
  | ["dev", name] => ofName? name
  | ["dev", "fd", number] =>
    match number.toList with
    | [c] => if c.isDigit then some (stream (c.toNat - '0'.toNat)) else none
    | _ => none
  | _ => none

end Device

end BoundaryProxy.Host
