import BoundaryProxy.Check.Finding
import BoundaryProxy.Proxy.Unit

/-!
# `BoundaryProxy.Check.Basic` — checking a generated class without a compiler

The check looks at names: that the members of the class do not clash, that every name a body uses is
declared where it is used, and that bodies return values where they must. External types are not resolved.

Findings come in a fixed order: first those about the class's members in the order of the members, then
those about each body in the same order, statement by statement.
-/

namespace BoundaryProxy.Check

open Proxy

/-! ## Clashes between members -/

/-- The kinds of members that have names. -/
inductive NameKind where
  | field
  | method
  | event
deriving Repr, DecidableEq

/-- The names and signatures that the members before a member have taken. -/
structure Taken where
  names : List (String × NameKind) := []
  signatures : List (String × List TypeExpr) := []

/-- A finding if a condition holds. -/
def findIf (condition : Bool) (f : Finding) : List Finding :=
  if condition then [f] else []

/-- What is wrong with a name of a kind after the names taken before it, and whether it clashes. -/
def checkName (className : String) (taken : Taken) (name : String) (kind : NameKind) :
    List Finding × Bool :=
  let clash := match taken.names.lookup name with
    | none => false
    | some other => !(other == .method && kind == .method)
  (findIf (name == className) (.namedAsClass name) ++ findIf clash (.nameTaken name), clash)

/-- The names taken after a member: the first member of a name decides its kind. -/
def Taken.addName (taken : Taken) (name : String) (kind : NameKind) : Taken :=
  if (taken.names.lookup name).isSome then taken
  else { taken with names := (name, kind) :: taken.names }

/-- What is wrong with a member after those before it, and what is taken after it. -/
def checkMember (className : String) (taken : Taken) : Member → List Finding × Taken
  | .constructor _ => ([], taken)
  | .field f =>
    ((checkName className taken f.name .field).1, taken.addName f.name .field)
  | .event e =>
    ((checkName className taken e.name .event).1, taken.addName e.name .event)
  | .method m =>
    let (findings, clash) := checkName className taken m.name .method
    let taken := taken.addName m.name .method
    if clash then (findings, taken)
    else
      (findings ++ findIf (taken.signatures.contains (m.name, m.paramTypes)) (.signatureTaken m.name),
        { taken with signatures := (m.name, m.paramTypes) :: taken.signatures })

/-- What is wrong with the members after those taken before them. -/
def checkMembers (className : String) (taken : Taken) : List Member → List Finding
  | [] => []
  | m :: rest =>
    let (findings, taken) := checkMember className taken m
    findings ++ checkMembers className taken rest

/-! ## Names in bodies -/

/-- The names that the members of a class declare. -/
structure ClassNames where
  fields : List String
  methods : List String
  events : List String

/-- The names a unit's members declare. -/
def ClassNames.of (u : ProxyUnit) : ClassNames :=
  ⟨u.fields.map (·.name), u.methods.map (·.name), u.events.map (·.name)⟩

/-- The parameters of a body and the locals declared so far. -/
structure Scope where
  params : List String
  locals : List String

mutual

/-- What is wrong with an expression. -/
def checkExpr (names : ClassNames) (scope : Scope) : Expr → List Finding
  | .null => []
  | .path _ => []
  | .field name => findIf (!names.fields.contains name) (.noMember name)
  | .methodRef name => findIf (!names.methods.contains name) (.noMember name)
  | .param name => findIf (!scope.params.contains name) (.undeclared name)
  | .localVar name => findIf (!scope.locals.contains name) (.undeclared name)
  | .property target _ => checkExpr names scope target
  | .index target keys => checkExpr names scope target ++ checkExprs names scope keys
  | .invoke target _ args => checkExpr names scope target ++ checkArgs names scope args
  | .new _ args => checkExprs names scope args

/-- What is wrong with several expressions. -/
def checkExprs (names : ClassNames) (scope : Scope) : List Expr → List Finding
  | [] => []
  | e :: rest => checkExpr names scope e ++ checkExprs names scope rest

/-- What is wrong with an argument. -/
def checkArg (names : ClassNames) (scope : Scope) : Arg → List Finding
  | .value e => checkExpr names scope e
  | .discard => []

/-- What is wrong with several arguments. -/
def checkArgs (names : ClassNames) (scope : Scope) : List Arg → List Finding
  | [] => []
  | a :: rest => checkArg names scope a ++ checkArgs names scope rest

end

/-- What is wrong with an expression that may be missing. -/
def checkOptional (names : ClassNames) (scope : Scope) (e : Option Expr) : List Finding :=
  (e.map (checkExpr names scope)).getD []

/-- What is wrong with a statement, and the locals in scope after it. An initialiser is checked before its
    local comes into scope; a local that hides a parameter does not come into scope at all. -/
def checkStmt (names : ClassNames) (scope : Scope) : Stmt → List Finding × Scope
  | .declare _ name init =>
    let findings := checkOptional names scope init
    if scope.params.contains name then (findings ++ [.localHidesParam name], scope)
    else if scope.locals.contains name then (findings ++ [.localRepeated name], scope)
    else (findings, { scope with locals := name :: scope.locals })
  | .assign target value => (checkExpr names scope target ++ checkExpr names scope value, scope)
  | .return value => (checkOptional names scope value, scope)
  | .expr e => (checkExpr names scope e, scope)
  | .attach target _ handler => (checkExpr names scope target ++ checkExpr names scope handler, scope)
  | .raise event args =>
    (findIf (!names.events.contains event) (.noMember event) ++ checkExprs names scope args, scope)

/-- What is wrong with the statements of a body, where `onReturn` says what is wrong with a return that has
    a value or has none. -/
def checkBody (names : ClassNames) (onReturn : Option Expr → List Finding) (scope : Scope) :
    List Stmt → List Finding
  | [] => []
  | s :: rest =>
    let returned := match s with
      | .return value => onReturn value
      | _ => []
    let (findings, scope) := checkStmt names scope s
    returned ++ findings ++ checkBody names onReturn scope rest

/-- What is wrong with the names of parameters after those before them. -/
def checkParams (before : List String) : List Param → List Finding
  | [] => []
  | p :: rest => findIf (before.contains p.name) (.paramRepeated p.name) ++ checkParams (p.name :: before) rest

/-- The scope at the start of a body. -/
def Scope.start (params : List Param) : Scope :=
  ⟨params.map (·.name), []⟩

/-- What is wrong with a return in a constructor. -/
def constructorReturn (value : Option Expr) : List Finding :=
  findIf value.isSome .constructorReturnsValue

/-- What is wrong with a return in a method. -/
def methodReturn (m : Method) (value : Option Expr) : List Finding :=
  if m.returns.isVoid then findIf value.isSome (.voidReturnsValue m.name)
  else findIf value.isNone (.valueMissing m.returns)

/-- Whether a body ends with a return. -/
def endsWithReturn (body : List Stmt) : Bool :=
  (body.getLast?.map Stmt.isReturn).getD false

/-- What is wrong with the body of a member. -/
def checkMemberBody (names : ClassNames) : Member → List Finding
  | .constructor c =>
    checkParams [] c.params ++ checkBody names constructorReturn (.start c.params) c.body
  | .method m =>
    checkParams [] m.params ++ checkBody names (methodReturn m) (.start m.params) m.body ++
      findIf (!m.returns.isVoid && !endsWithReturn m.body) (.pathWithoutReturn m.name)
  | .field _ => []
  | .event _ => []

end BoundaryProxy.Check

namespace BoundaryProxy

/-- What is wrong with a generated class. -/
def ProxyUnit.check (u : ProxyUnit) : List Finding :=
  Check.findIf (1 < u.constructors.length) .secondConstructor ++
    Check.checkMembers u.className {} u.members ++
    u.members.flatMap (Check.checkMemberBody (.of u))

/-- The findings as lines of output. -/
def ProxyUnit.checkLines (u : ProxyUnit) : List String :=
  u.check.map (Finding.line u.className)

end BoundaryProxy
