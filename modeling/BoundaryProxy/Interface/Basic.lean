import BoundaryProxy.TypeExpr.Basic

/-!
# `BoundaryProxy.Interface.Basic` — interfaces of the foreign API

An interface declares methods, properties and events, and names the interfaces it inherits from directly.
A property is a pair of accessor methods, `get_P` and `set_P`; an API may also list accessors as methods,
marked as special, which is how indexers with their parameters appear. `Interface.allMethods` is the list in
which both kinds are methods.
-/

namespace BoundaryProxy

/-- Whether a parameter hands a value in or only out. -/
inductive Direction where
  | input
  | output
deriving Repr, DecidableEq

/-- A parameter of a foreign method. -/
structure Parameter where
  name : String
  type : TypeExpr
  direction : Direction := .input
deriving Repr, DecidableEq

/-- Whether a parameter only hands a value out. -/
def Parameter.isOut (p : Parameter) : Bool :=
  p.direction == .output

/-- A foreign method; the accessors of properties and indexers are marked as special. -/
structure MethodDecl where
  name : String
  params : List Parameter := []
  returns : TypeExpr := .void
  special : Bool := false
deriving Repr, DecidableEq

namespace MethodDecl

/-- The accessor that reads a property. -/
def getter (property : String) (type : TypeExpr) : MethodDecl :=
  { name := "get_" ++ property, returns := type, special := true }

/-- The accessor that writes a property. -/
def setter (property : String) (type : TypeExpr) : MethodDecl :=
  { name := "set_" ++ property, params := [⟨"value", type, .input⟩], special := true }

/-- Whether some parameter only hands a value out. -/
def hasOutParams (m : MethodDecl) : Bool :=
  m.params.any Parameter.isOut

/-- The types of the parameters. -/
def paramTypes (m : MethodDecl) : List TypeExpr :=
  m.params.map Parameter.type

end MethodDecl

/-- A foreign property. -/
structure PropertyDecl where
  name : String
  type : TypeExpr
  canRead : Bool := true
  canWrite : Bool := false
deriving Repr, DecidableEq

/-- The accessors a property stands for, the one that reads first. -/
def PropertyDecl.accessors (p : PropertyDecl) : List MethodDecl :=
  (if p.canRead then [.getter p.name p.type] else []) ++
    (if p.canWrite then [.setter p.name p.type] else [])

/-- A foreign event; its payload is the one argument of a notification, if it has one. -/
structure EventDecl where
  name : String
  payload : Option TypeExpr := none
deriving Repr, DecidableEq

/-- One interface of the foreign API. -/
structure Interface where
  type : TypeExpr
  methods : List MethodDecl := []
  properties : List PropertyDecl := []
  events : List EventDecl := []
  bases : List TypeExpr := []
deriving Repr, DecidableEq, Inhabited

namespace Interface

/-- The methods of an interface with the accessors of its properties in front. -/
def allMethods (i : Interface) : List MethodDecl :=
  i.properties.flatMap PropertyDecl.accessors ++ i.methods

/-- The interface with one more method. -/
def addMethod (i : Interface) (m : MethodDecl) : Interface :=
  { i with methods := i.methods ++ [m] }

/-- The interface with one more property. -/
def addProperty (i : Interface) (p : PropertyDecl) : Interface :=
  { i with properties := i.properties ++ [p] }

/-- The interface with one more event. -/
def addEvent (i : Interface) (e : EventDecl) : Interface :=
  { i with events := i.events ++ [e] }

/-- The interface with one more direct base. -/
def addBase (i : Interface) (t : TypeExpr) : Interface :=
  { i with bases := i.bases ++ [t] }

end Interface

end BoundaryProxy
