/-!
# `BoundaryProxy.Naming.Supply` — a supply of fresh names

A supply issues `stem0`, `stem1`, `stem2`, … and never goes back. Its names are distinct from each other by
their numbers; they are not compared with names chosen elsewhere.
-/

namespace BoundaryProxy

/-- A supply of names: the stem they share and how many were issued. -/
structure NameSupply where
  stem : String := "var"
  issued : Nat := 0
deriving Repr, DecidableEq, Inhabited

namespace NameSupply

/-- The name with a given number. -/
def nth (s : NameSupply) (n : Nat) : String :=
  s.stem ++ toString n

/-- Issue the next name. -/
def next (s : NameSupply) : String × NameSupply :=
  (s.nth s.issued, { s with issued := s.issued + 1 })

end NameSupply

end BoundaryProxy
