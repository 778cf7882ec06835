/-!
# `BoundaryProxy.TypeExpr.Basic` — types of the foreign API

A type is named by the full name of its definition, the types it is applied to, and the number of array
brackets after it: `System.Collections.Generic.IEnumerable<Ns.IElement>[]`. Two types are the same when all
three agree; nothing is resolved, so a name is only ever compared.

The names are not restricted here. Which of them can be written and read back is a matter of the grammar in
`BoundaryProxy.TypeExpr.Parser`.
-/

namespace BoundaryProxy

/-- A type: the full name of its definition, its generic arguments and the number of `[]` after it. -/
structure TypeExpr where
  name : String
  args : List TypeExpr := []
  rank : Fin 256 := 0
deriving Repr, Inhabited

namespace TypeExpr

/-! ## Equality -/

mutual

/-- Types are compared part by part. -/
protected def decEq : (s t : TypeExpr) → Decidable (s = t)
  | ⟨n, as, r⟩, ⟨m, bs, k⟩ =>
    match TypeExpr.decEqArgs as bs with
    | .isTrue h => decidable_of_iff (n = m ∧ r = k) (by simp [h])
    | .isFalse h => .isFalse (by simp [h])

/-- Lists of arguments are compared one by one. -/
protected def decEqArgs : (as bs : List TypeExpr) → Decidable (as = bs)
  | [], [] => .isTrue rfl
  | [], _ :: _ => .isFalse (by simp)
  | _ :: _, [] => .isFalse (by simp)
  | a :: as, b :: bs =>
    match TypeExpr.decEq a b, TypeExpr.decEqArgs as bs with
    | .isTrue h, .isTrue k => .isTrue (by simp [h, k])
    | .isFalse h, _ => .isFalse (by simp [h])
    | _, .isFalse h => .isFalse (by simp [h])

end

instance : DecidableEq TypeExpr :=
  TypeExpr.decEq

/-- The name of the definition is enough to spread types over a table. -/
instance : Hashable TypeExpr :=
  ⟨fun t => hash t.name⟩

/-! ## The types that rules mention -/

/-- The type with a name and nothing else. -/
def named (name : String) : TypeExpr :=
  ⟨name, [], 0⟩

/-- A definition applied to arguments. -/
def generic (name : String) (args : List TypeExpr) : TypeExpr :=
  ⟨name, args, 0⟩

/-- What a member without a value returns. -/
def void : TypeExpr :=
  named "System.Void"

/-- The type of registry keys unless a descriptor says otherwise. -/
def int : TypeExpr :=
  named "System.Int32"

/-- The root of all types. -/
def object : TypeExpr :=
  named "System.Object"

/-- The name of the sequence interface. -/
def sequenceName : String :=
  "System.Collections.Generic.IEnumerable"

/-- The sequence of an element type. -/
def sequenceOf (element : TypeExpr) : TypeExpr :=
  generic sequenceName [element]

/-- The array of a type. A type takes at most 255 pairs of brackets; one that has them stays as it is. -/
def array (t : TypeExpr) : TypeExpr :=
  if h : t.rank.val + 1 < 256 then { t with rank := ⟨t.rank.val + 1, h⟩ } else t

/-! ## Parts -/

/-- Whether the type is `System.Void` itself, neither applied nor an array. -/
def isVoid (t : TypeExpr) : Bool :=
  t.name == "System.Void" && t.args.isEmpty && t.rank == 0

/-- Whether the type has arguments. -/
def isGeneric (t : TypeExpr) : Bool :=
  !t.args.isEmpty

/-- The type without its arguments and brackets. -/
def definition (t : TypeExpr) : TypeExpr :=
  named t.name

/-- The element type of a sequence. -/
def sequenceElement? (t : TypeExpr) : Option TypeExpr :=
  match t.args with
  | [element] => if t.name = sequenceName ∧ t.rank = 0 then some element else none
  | _ => none

/-- The characters of a dotted name after its last dot, all of them if it has none. -/
def lastSegment (name : List Char) : List Char :=
  (name.reverse.takeWhile (· != '.')).reverse

/-- The name after the last dot. -/
def simpleName (t : TypeExpr) : String :=
  String.ofList (lastSegment t.name.toList)

/-- The name before the last dot, if there is one. -/
def namespace? (t : TypeExpr) : Option String :=
  match t.name.toList.reverse.dropWhile (· != '.') with
  | [] => none
  | _ :: space => some (String.ofList space.reverse)

end TypeExpr

end BoundaryProxy
