import BoundaryProxy.Proxy.Code

/-!
# `BoundaryProxy.Proxy.Unit` — a generated class

A proxy unit is one namespace with one public class. Its members stand in one list, in the order in which
they were made; each kind has a view that picks its members out in that order.
-/

namespace BoundaryProxy

namespace Proxy

/-- A parameter of a generated member. -/
structure Param where
  name : String
  type : TypeExpr
deriving Repr, DecidableEq

/-- Where the value of a field comes from. -/
inductive FieldInit where
  /-- A parameter of the constructor. -/
  | fromParam (name : String)
  /-- A path of the host. -/
  | fixed (path : String)
deriving Repr, DecidableEq

/-- A private field. -/
structure Field where
  name : String
  type : TypeExpr
  init : FieldInit
deriving Repr, DecidableEq

/-- A constructor. -/
structure Constructor where
  params : List Param := []
  body : List Stmt := []
deriving Repr, Inhabited

/-- A public method. -/
structure Method where
  name : String
  params : List Param := []
  returns : TypeExpr
  body : List Stmt := []
deriving Repr, Inhabited

/-- The types of a method's parameters. -/
def Method.paramTypes (m : Method) : List TypeExpr :=
  m.params.map Param.type

/-- The parameter of a name. -/
def Method.param? (m : Method) (name : String) : Option Param :=
  m.params.find? (·.name == name)

/-- A public event and the delegate type of its handlers. -/
structure Event where
  name : String
  handlerType : TypeExpr
deriving Repr, DecidableEq

/-- A member of a generated class. -/
inductive Member where
  | field (f : Field)
  | constructor (c : Constructor)
  | method (m : Method)
  | event (e : Event)
deriving Repr

namespace Member

/-- The name of a member; a constructor has none of its own. -/
def name? : Member → Option String
  | field f => some f.name
  | constructor _ => none
  | method m => some m.name
  | event e => some e.name

/-- The member as a field. -/
def field? : Member → Option Field
  | field f => some f
  | _ => none

/-- The member as a constructor. -/
def constructor? : Member → Option Constructor
  | constructor c => some c
  | _ => none

/-- The member as a method. -/
def method? : Member → Option Method
  | method m => some m
  | _ => none

/-- The member as an event. -/
def event? : Member → Option Event
  | event e => some e
  | _ => none

end Member

end Proxy

/-- A namespace with one generated class. -/
structure ProxyUnit where
  namespaceName : String
  className : String
  members : List Proxy.Member
deriving Repr

namespace ProxyUnit

open Proxy

/-- The fields in order. -/
def fields (u : ProxyUnit) : List Field :=
  u.members.filterMap Member.field?

/-- The constructors in order. -/
def constructors (u : ProxyUnit) : List Constructor :=
  u.members.filterMap Member.constructor?

/-- The methods in order. -/
def methods (u : ProxyUnit) : List Method :=
  u.members.filterMap Member.method?

/-- The events in order. -/
def events (u : ProxyUnit) : List Event :=
  u.members.filterMap Member.event?

/-- The first method of a name. -/
def method? (u : ProxyUnit) (name : String) : Option Method :=
  u.methods.find? (·.name == name)

/-- The first field of a name. -/
def field? (u : ProxyUnit) (name : String) : Option Field :=
  u.fields.find? (·.name == name)

/-- The first field declared with a type. -/
def fieldOfType? (u : ProxyUnit) (t : TypeExpr) : Option Field :=
  u.fields.find? (·.type = t)

end ProxyUnit

end BoundaryProxy
