import BoundaryProxy.Members.Basic
import BoundaryProxy.Naming.Accessor
import BoundaryProxy.Synthesis.Draft
import BoundaryProxy.Synthesis.Notice

/-!
# `BoundaryProxy.Synthesis.Session` — converting the members of an interface

A session converts the members of one wrapped interface, family by family, into the members of one class.
What it wraps is fixed at the start (`Subject`): the type, how its object is reached, and the field that
holds the object or, for an object that is looked up on every call, its registry.

* A getter returns the property or slot it reads, a setter assigns the one it writes; a method calls the
  method of its name.
* An event is declared again, with a method that raises it, and the constructor attaches that method to the
  event of the wrapped object through a delegate that may cross the boundary.
-/

namespace BoundaryProxy.Synthesis

open Proxy

/-- What a session wraps. -/
structure Subject where
  type : TypeExpr
  registries : RegistrySet
  profile : Profile
  access : Access
  /-- The field of the wrapped object, or of its registry. -/
  field : FieldRef

/-- The class under construction and the notices so far. -/
structure Session where
  unit : Assembler
  notices : List Notice := []

namespace Session

/-- Change the class under construction. -/
def onUnit {α : Type} (step : StateM Assembler α) : StateM Session α :=
  modifyGet fun s => ((step s.unit).1, { s with unit := (step s.unit).2 })

/-- Report something. -/
def report (n : Notice) : StateM Session Unit :=
  modify fun s => { s with notices := s.notices ++ [n] }

/-- Write a method and add it to the class. -/
def addMethod (name : String) (returns : TypeExpr) (write : StateM Draft Unit) : StateM Session Unit :=
  modify fun s =>
    let draft := (write ⟨s.unit, { name, returns }⟩).2
    { s with unit := (Assembler.pushMethod draft.method draft.unit).2 }

end Session

namespace Subject

open Session Draft

/-! ## The start of a session -/

/-- The assembler of an empty class for a type. -/
def shell (type : TypeExpr) (p : Profile) : Assembler :=
  let base := Naming.letterName type.simpleName
  .start (base ++ p.namespaceSuffix) (base ++ p.classSuffix) p.namePrefix

/-- Add the field through which the wrapped object is reached. -/
def wrappedField (type : TypeExpr) (p : Profile) : Access → StateM Assembler FieldRef
  | .injected => Assembler.constructorField type
  | .resolved d => Assembler.fixedField d.registryType (p.registryPathFor d.name)
  | .container d => Assembler.fixedField d.registryType (p.registryPathFor d.name)
  | .singleton path => Assembler.fixedField type (p.singletonPathFor path)

/-- The subject and the session of a type. -/
def start (type : TypeExpr) (r : RegistrySet) (p : Profile) : Subject × Session :=
  let access := Access.of type r p
  let placed := wrappedField type p access (shell type p)
  (⟨type, r, p, access, placed.1⟩, ⟨placed.2, []⟩)

/-! ## Targets and warnings -/

/-- Reach the wrapped object at the beginning of a method. -/
def target (s : Subject) : StateM Draft Expr :=
  match s.access.member? with
  | some descriptor => resolve descriptor s.field
  | none => return s.field.expr

/-- Report a member that returns a sequence of registry members, which leave as they are. -/
def reportLeak (s : Subject) (member : String) (type : TypeExpr) : StateM Session Unit :=
  match type.sequenceElement?.bind s.registries.byMember? with
  | some _ => report (.sequenceLeak s.type member type)
  | none => return ()

/-! ## Accessors -/

/-- The property of an accessor, or its slot if it has keys. -/
def slot (s : Subject) (accessor : String) (keys : List Parameter) (object : Expr) : StateM Draft Expr :=
  if keys.isEmpty then return .property object (Naming.propertyName accessor)
  else return .index object (← keys.mapM (incoming s.registries))

/-- Write the method that returns what a getter reads. -/
def writeGetter (s : Subject) (getter : MethodDecl) : StateM Draft Unit := do
  let read ← s.slot getter.name getter.params (← s.target)
  returnRead s.registries read getter.returns

/-- Convert a getter. -/
def addGetter (s : Subject) (getter : MethodDecl) : StateM Session Unit := do
  let name := Naming.accessorMethodName getter.name
  s.reportLeak name getter.returns
  addMethod name getter.returns (s.writeGetter getter)

/-- Write the method that assigns what a setter writes, with its keys and the parameter of the value. -/
def writeSetter (s : Subject) (setter : MethodDecl) (keys : List Parameter) (value : Parameter) :
    StateM Draft Unit := do
  let written ← s.slot setter.name keys (← s.target)
  addStmt (.assign written (← incoming s.registries value))

/-- Convert a setter: its last parameter is the value, those before it are keys. -/
def addSetter (s : Subject) (setter : MethodDecl) : StateM Session Unit :=
  match setter.params.getLast? with
  | none => report (.setterWithoutValue s.type setter.name)
  | some value =>
    addMethod (Naming.accessorMethodName setter.name) .void
      (s.writeSetter setter setter.params.dropLast value)

/-! ## Methods -/

/-- Report a method that is left out. -/
def reportRejected (s : Subject) (m : MethodDecl) : StateM Session Unit :=
  report (.methodRejected s.type m.name ((m.params.filter Parameter.isOut).map (·.name)))

/-- Write the method that calls a method. -/
def writeCall (s : Subject) (m : MethodDecl) : StateM Draft Unit := do
  let object ← s.target
  let args ← m.params.mapM (argument s.registries)
  returnCall s.registries (.invoke object m.name args) m.returns

/-- Convert a method. -/
def convertMethod (s : Subject) (m : MethodDecl) : StateM Session Unit := do
  s.reportLeak m.name m.returns
  (m.params.filter Parameter.isOut).forM fun p => report (.argumentDiscarded s.type m.name p.name)
  addMethod m.name m.returns (s.writeCall m)

/-! ## Events -/

/-- A definition applied to the payload of an event, if it has one. -/
def overPayload (definition : String) (e : EventDecl) : TypeExpr :=
  match e.payload with
  | some payload => .generic definition [payload]
  | none => .named definition

/-- The name of the method that raises an event. -/
def raiseName (e : EventDecl) : String :=
  "Raise" ++ e.name

/-- Write the method that raises an event. -/
def writeRaise (e : EventDecl) : StateM Draft Unit :=
  match e.payload with
  | some payload => do
    let name ← freshName
    addParam ⟨name, payload⟩
    addStmt (.raise e.name [.null, .param name])
  | none => addStmt (.raise e.name [.null, .null])

/-- Forward an event. -/
def forwardEvent (s : Subject) (e : EventDecl) : StateM Session Unit := do
  onUnit (Assembler.pushEvent ⟨e.name, overPayload "System.EventHandler" e⟩)
  addMethod (raiseName e) .void (writeRaise e)
  onUnit (Assembler.addConstructorStatement
    (.attach s.field.expr e.name (.new (overPayload s.profile.eventProxy e) [.methodRef (raiseName e)])))

/-- Forward the events, unless the wrapped object is looked up on every call. -/
def addEvents (s : Subject) (events : List EventDecl) : StateM Session Unit :=
  if events.isEmpty then return ()
  else if s.access.member?.isSome then report (.eventsNotForwarded s.type events.length)
  else events.forM s.forwardEvent

end Subject

end BoundaryProxy.Synthesis
