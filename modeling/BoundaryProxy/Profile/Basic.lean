import BoundaryProxy.Text.Blank
import BoundaryProxy.Text.Numeral

/-!
# `BoundaryProxy.Profile.Basic` — how a host exposes its services

A profile says where generated code reaches the host's services, which property lists the registries and
which interface marks them, what generated names look like, and which types are fixed singletons. The
defaults describe one particular host.

`validate` names the first rule a profile breaks: five texts must not be blank, the stem of generated names
must be an identifier, and every singleton binding must be complete and the only one of its type.
-/

namespace BoundaryProxy

/-- What happens to a method with a parameter that only hands a value out. -/
inductive OutParamPolicy where
  | reject
  | discard
deriving Repr, DecidableEq

/-- A type that the host exposes at a fixed path below its service root. -/
structure SingletonBinding where
  typeName : String
  path : String
deriving Repr, DecidableEq

/-- How a host exposes its services and how generated code is named. -/
structure Profile where
  /-- The expression that reaches the host's service locator. -/
  serviceRoot : String := "SuperMemoAssistant.Services.Svc.SM"
  /-- The member of the service root that holds the registries. -/
  registryPath : String := "Registry"
  /-- The property of the host's root type whose type lists the registries. -/
  registryProperty : String := "Registry"
  /-- The generic interface that every container implements. -/
  registryMarker : String := "SuperMemoAssistant.Interop.SuperMemo.Core.IRegistry"
  /-- Containers with one of these fragments in their name are left out. -/
  excludedRegistries : List String := ["Component"]
  /-- The delegate wrapper that may cross the boundary. -/
  eventProxy : String := "SuperMemoAssistant.Sys.Remoting.ActionProxy"
  classSuffix : String := "Svc"
  namespaceSuffix : String := "Namespace"
  /-- The stem of generated names. -/
  namePrefix : String := "var"
  outParams : OutParamPolicy := .reject
  singletons : List SingletonBinding :=
    [⟨"SuperMemoAssistant.Interop.SuperMemo.UI.Element.IElementWdw", "UI.ElementWdw"⟩]
deriving Repr, DecidableEq, Inhabited

/-- The first rule a profile breaks. -/
inductive ProfileFlaw where
  | emptyKey (key : String)
  | badNamePrefix (given : String)
  | incompleteSingleton
  | repeatedSingleton (typeName : String)
deriving Repr, DecidableEq

/-- The rule in words. -/
def ProfileFlaw.text : ProfileFlaw → String
  | emptyKey key => s!"'{key}' cannot be empty"
  | badNamePrefix given =>
    s!"Invalid name prefix: '{given}'. Must start with a letter or underscore"
  | incompleteSingleton => "Singleton bindings need both 'type_name' and 'path'"
  | repeatedSingleton typeName => s!"Singleton '{typeName}' is bound more than once"

/-- The message for a profile that breaks a rule. -/
def ProfileFlaw.message (f : ProfileFlaw) : String :=
  s!"Invalid host profile: {f.text}"

namespace Profile

open Text

/-- The profile of the host that the defaults describe. -/
def default : Profile := {}

/-! ## Validation -/

/-- The texts that must not be blank, with the keys they are known by. -/
def requiredTexts (p : Profile) : List (String × String) :=
  [("service_root", p.serviceRoot), ("registry_path", p.registryPath),
   ("registry_property", p.registryProperty), ("registry_marker", p.registryMarker),
   ("event_proxy", p.eventProxy)]

/-- The first binding that is incomplete or repeats the type of one before it. -/
def singletonFlaw (seen : List String) : List SingletonBinding → Option ProfileFlaw
  | [] => none
  | b :: rest =>
    if b.typeName.isEmpty || b.path.isEmpty then some .incompleteSingleton
    else if b.typeName ∈ seen then some (.repeatedSingleton b.typeName)
    else singletonFlaw (b.typeName :: seen) rest

/-- The first rule the profile breaks, if it breaks one. -/
def flaw? (p : Profile) : Option ProfileFlaw :=
  match p.requiredTexts.find? fun (_, value) => isBlankText value with
  | some (key, _) => some (.emptyKey key)
  | none =>
    if isIdentifier p.namePrefix then singletonFlaw [] p.singletons
    else some (.badNamePrefix p.namePrefix)

/-- The profile itself if it keeps every rule. -/
def validate (p : Profile) : Except ProfileFlaw Profile :=
  match p.flaw? with
  | some flaw => .error flaw
  | none => .ok p

/-! ## Paths -/

/-- The path at which generated code reaches a registry. -/
def registryPathFor (p : Profile) (registry : String) : String :=
  s!"{p.serviceRoot}.{p.registryPath}.{registry}"

/-- The path at which generated code reaches a singleton. -/
def singletonPathFor (p : Profile) (path : String) : String :=
  s!"{p.serviceRoot}.{path}"

/-- The binding of a type name. -/
def singleton? (p : Profile) (typeName : String) : Option SingletonBinding :=
  p.singletons.find? (·.typeName = typeName)

end Profile

end BoundaryProxy
