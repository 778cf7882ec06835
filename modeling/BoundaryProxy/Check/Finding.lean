import BoundaryProxy.TypeExpr.Printer

/-!
# `BoundaryProxy.Check.Finding` — what can be wrong with a generated class

Each finding is an error that a C# compiler raises for a shape a generated class can take. It has the
compiler's code and wording; a line of output names the class's file before them.
-/

namespace BoundaryProxy

/-- Something wrong with a generated class. -/
inductive Finding where
  | secondConstructor
  | namedAsClass (name : String)
  | nameTaken (name : String)
  | signatureTaken (method : String)
  | constructorReturnsValue
  | voidReturnsValue (method : String)
  | valueMissing (type : TypeExpr)
  | pathWithoutReturn (method : String)
  | paramRepeated (name : String)
  | localHidesParam (name : String)
  | localRepeated (name : String)
  | undeclared (name : String)
  | noMember (name : String)
deriving Repr, DecidableEq

namespace Finding

/-- The compiler's code. -/
def code : Finding → String
  | secondConstructor => "CS0111"
  | namedAsClass _ => "CS0542"
  | nameTaken _ => "CS0102"
  | signatureTaken _ => "CS0111"
  | constructorReturnsValue => "CS0127"
  | voidReturnsValue _ => "CS0127"
  | valueMissing _ => "CS0126"
  | pathWithoutReturn _ => "CS0161"
  | paramRepeated _ => "CS0100"
  | localHidesParam _ => "CS0136"
  | localRepeated _ => "CS0128"
  | undeclared _ => "CS0103"
  | noMember _ => "CS1061"

/-- The compiler's wording, for a class of a given name. -/
def text (className : String) : Finding → String
  | secondConstructor =>
    s!"Type '{className}' already defines a member called '{className}' with the same parameter types"
  | namedAsClass name => s!"'{name}': member names cannot be the same as their enclosing type"
  | nameTaken name => s!"The type '{className}' already contains a definition for '{name}'"
  | signatureTaken method =>
    s!"Type '{className}' already defines a member called '{method}' with the same parameter types"
  | constructorReturnsValue =>
    "Since the constructor returns void, a return keyword must not be followed by an object expression"
  | voidReturnsValue method =>
    s!"Since '{className}.{method}' returns void, a return keyword must not be followed by an object expression"
  | valueMissing type => s!"An object of a type convertible to '{type}' is required"
  | pathWithoutReturn method => s!"'{className}.{method}': not all code paths return a value"
  | paramRepeated name => s!"The parameter name '{name}' is a duplicate"
  | localHidesParam name =>
    s!"A local named '{name}' cannot be declared in this scope because it conflicts with a parameter"
  | localRepeated name => s!"A local variable named '{name}' is already defined in this scope"
  | undeclared name => s!"The name '{name}' does not exist in the current context"
  | noMember name => s!"'{className}' does not contain a definition for '{name}'"

/-- The line of output for a finding. -/
def line (className : String) (f : Finding) : String :=
  s!"{className}.cs: error {f.code}: {f.text className}"

end Finding

end BoundaryProxy
