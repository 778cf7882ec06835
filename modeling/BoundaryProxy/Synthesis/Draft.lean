import BoundaryProxy.Interface.Basic
import BoundaryProxy.Proxy.Assembler
import BoundaryProxy.Registry.Classification

/-!
# `BoundaryProxy.Synthesis.Draft` — one generated method in the making

A draft is the class under construction together with the method being written for it. The rules by which
values cross the boundary are stated here, one function each:

* a value of a registry member's type comes in as its key: the method takes a key parameter and looks the
  object up in the registry's field, which the constructor injects if it is not there yet (`incoming`);
* any other value comes in unchanged;
* a parameter that only hands a value out takes no part in the signature, its place in the call is a discard
  (`argument`);
* a registry member goes out as its identifier (`returnRead`, `returnCall`).
-/

namespace BoundaryProxy.Synthesis

open Proxy

/-- The property of a registry member that holds its key. -/
def idProperty : String :=
  "Id"

/-- The class under construction and the method being written. -/
structure Draft where
  unit : Assembler
  method : Method

namespace Draft

/-! ## Steps -/

/-- Change the class under construction. -/
def onUnit {α : Type} (step : StateM Assembler α) : StateM Draft α :=
  modifyGet fun d => ((step d.unit).1, { d with unit := (step d.unit).2 })

/-- Issue a fresh name. -/
def freshName : StateM Draft String :=
  onUnit Assembler.nextName

/-- Add a parameter to the end of the method's. -/
def addParam (p : Param) : StateM Draft Unit :=
  modify fun d => { d with method := { d.method with params := d.method.params ++ [p] } }

/-- Add a statement to the end of the method's body. -/
def addStmt (s : Stmt) : StateM Draft Unit :=
  modify fun d => { d with method := { d.method with body := d.method.body ++ [s] } }

/-- Change what the method returns. -/
def setReturns (t : TypeExpr) : StateM Draft Unit :=
  modify fun d => { d with method := { d.method with returns := t } }

/-! ## Values that come in -/

/-- Take a key and look its object up in a registry: the local that holds the object. -/
def resolve (descriptor : RegistryDescriptor) (registry : FieldRef) : StateM Draft Expr := do
  let key ← freshName
  addParam ⟨key, descriptor.keyType⟩
  let object ← freshName
  addStmt (.declare descriptor.memberType object (some (.index registry.expr [.param key])))
  return .localVar object

/-- Take what stands in for a parameter: the value to use in its place. -/
def incoming (registries : RegistrySet) (p : Parameter) : StateM Draft Expr :=
  match registries.byMember? p.type with
  | some descriptor => do
    let registry ← onUnit (Assembler.constructorField descriptor.registryType)
    resolve descriptor registry
  | none => do
    let name ← freshName
    addParam ⟨name, p.type⟩
    return .param name

/-- The argument to pass for a parameter. -/
def argument (registries : RegistrySet) (p : Parameter) : StateM Draft Arg :=
  if p.isOut then return .discard
  else return .value (← incoming registries p)

/-! ## Values that go out -/

/-- Return what was read from a property or slot of a type. -/
def returnRead (registries : RegistrySet) (read : Expr) (type : TypeExpr) : StateM Draft Unit :=
  match registries.byMember? type with
  | some descriptor => do
    setReturns descriptor.keyType
    addStmt (.return (some (.property read idProperty)))
  | none => addStmt (.return (some read))

/-- Return the result of a call to a method of a return type; a call without a result stands alone. -/
def returnCall (registries : RegistrySet) (call : Expr) (type : TypeExpr) : StateM Draft Unit :=
  if type.isVoid then addStmt (.expr call)
  else
    match registries.byMember? type with
    | some descriptor => do
      let object ← freshName
      addStmt (.declare type object (some call))
      setReturns descriptor.keyType
      addStmt (.return (some (.property (.localVar object) idProperty)))
    | none => addStmt (.return (some call))

end Draft

end BoundaryProxy.Synthesis
