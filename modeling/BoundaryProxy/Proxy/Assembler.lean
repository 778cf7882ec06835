import BoundaryProxy.Naming.Supply
import BoundaryProxy.Proxy.Unit

/-!
# `BoundaryProxy.Proxy.Assembler` — building a generated class

An assembler holds a class under construction: its members so far, its constructor, and the supply of names
for everything that has no name of its own. A field is asked for by type: a type that has a field already
gets that field again, so no two fields ever share a type.

A field that the constructor injects takes two names, one for the constructor's parameter and one for
itself, and adds the assignment of one to the other to the constructor.
-/

namespace BoundaryProxy.Proxy

/-- A class under construction. -/
structure Assembler where
  namespaceName : String
  className : String
  names : NameSupply
  members : List Member := []
  constructor : Constructor := {}
deriving Inhabited

/-- A field that exists: its name and type. -/
structure FieldRef where
  name : String
  type : TypeExpr
deriving Repr, DecidableEq

/-- The field as an expression. -/
def FieldRef.expr (f : FieldRef) : Expr :=
  .field f.name

namespace Assembler

/-- A class without members whose names share a stem. -/
def start (namespaceName className stem : String) : Assembler :=
  { namespaceName, className, names := ⟨stem, 0⟩ }

/-- Issue a fresh name. -/
def nextName : StateM Assembler String :=
  modifyGet fun a => (a.names.next.1, { a with names := a.names.next.2 })

/-- The first field declared with a type. -/
def fieldOfType? (a : Assembler) (t : TypeExpr) : Option FieldRef :=
  (a.members.filterMap Member.field?).findSome? fun f =>
    if f.type = t then some ⟨f.name, f.type⟩ else none

/-- Add a member. -/
def push (m : Member) : StateM Assembler Unit :=
  modify fun a => { a with members := a.members ++ [m] }

/-- Add a method. -/
def pushMethod (m : Method) : StateM Assembler Unit :=
  push (.method m)

/-- Add an event. -/
def pushEvent (e : Event) : StateM Assembler Unit :=
  push (.event e)

/-- Add a statement to the end of the constructor. -/
def addConstructorStatement (s : Stmt) : StateM Assembler Unit :=
  modify fun a => { a with constructor := { a.constructor with body := a.constructor.body ++ [s] } }

/-- Add a parameter to the end of the constructor's. -/
def addConstructorParam (p : Param) : StateM Assembler Unit :=
  modify fun a => { a with constructor := { a.constructor with params := a.constructor.params ++ [p] } }

/-- The field of a type, bound from a new parameter of the constructor unless it exists. -/
def constructorField (t : TypeExpr) : StateM Assembler FieldRef := do
  match (← get).fieldOfType? t with
  | some existing => return existing
  | none =>
    let param ← nextName
    let name ← nextName
    addConstructorStatement (.assign (.field name) (.param param))
    addConstructorParam ⟨param, t⟩
    push (.field ⟨name, t, .fromParam param⟩)
    return ⟨name, t⟩

/-- The field of a type, initialised from a path of the host unless it exists. -/
def fixedField (t : TypeExpr) (path : String) : StateM Assembler FieldRef := do
  match (← get).fieldOfType? t with
  | some existing => return existing
  | none =>
    let name ← nextName
    push (.field ⟨name, t, .fixed path⟩)
    return ⟨name, t⟩

/-- The finished class: the members with the constructor after them. -/
def finish (a : Assembler) : ProxyUnit :=
  ⟨a.namespaceName, a.className, a.members ++ [.constructor a.constructor]⟩

end Assembler

end BoundaryProxy.Proxy
