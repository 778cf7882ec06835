import BoundaryProxy.TypeExpr.Printer

/-!
# `BoundaryProxy.Source.Spelling` — how generated source spells a type

The written form of the type, with the C# keyword in place of the name wherever a primitive stands without
arguments: `System.Int32[]` is spelled `int[]`, and `System.Int32<A>`, which is no primitive, keeps its name.
-/

namespace BoundaryProxy.TypeExpr

/-- The keywords of the primitive types. -/
def keywords : List (String × String) :=
  [("System.Void", "void"), ("System.Object", "object"), ("System.String", "string"),
   ("System.Boolean", "bool"), ("System.Char", "char"), ("System.Byte", "byte"),
   ("System.SByte", "sbyte"), ("System.Int16", "short"), ("System.UInt16", "ushort"),
   ("System.Int32", "int"), ("System.UInt32", "uint"), ("System.Int64", "long"),
   ("System.UInt64", "ulong"), ("System.Single", "float"), ("System.Double", "double"),
   ("System.Decimal", "decimal")]

/-- The keyword of a primitive type's name; any other name itself. -/
def keywordOr (name : String) : String :=
  (keywords.lookup name).getD name

mutual

/-- The source spelling of a type. -/
def spelling : TypeExpr → String
  | ⟨name, [], rank⟩ => keywordOr name ++ brackets rank
  | ⟨name, a :: as, rank⟩ => name ++ "<" ++ spelling a ++ restSpelling as ++ ">" ++ brackets rank

/-- The arguments after the first, each behind a comma. -/
def restSpelling : List TypeExpr → String
  | [] => ""
  | a :: as => ", " ++ spelling a ++ restSpelling as

end

end BoundaryProxy.TypeExpr
