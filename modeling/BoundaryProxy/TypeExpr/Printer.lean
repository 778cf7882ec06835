import BoundaryProxy.TypeExpr.Basic

/-!
# `BoundaryProxy.TypeExpr.Printer` — the written form of a type

The name, the arguments between angle brackets with `, ` between them, and a pair of brackets for each rank.
-/

namespace BoundaryProxy.TypeExpr

/-- As many pairs of brackets as the rank says. -/
def brackets (n : Nat) : String :=
  String.join (List.replicate n "[]")

mutual

/-- The written form of a type. -/
def text : TypeExpr → String
  | ⟨name, args, rank⟩ => name ++ argsText args ++ brackets rank

/-- The arguments between angle brackets, nothing if there are none. -/
def argsText : List TypeExpr → String
  | [] => ""
  | a :: as => "<" ++ text a ++ restText as ++ ">"

/-- The arguments after the first, each behind a comma. -/
def restText : List TypeExpr → String
  | [] => ""
  | a :: as => ", " ++ text a ++ restText as

end

instance : ToString TypeExpr :=
  ⟨text⟩

end BoundaryProxy.TypeExpr
