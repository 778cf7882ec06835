import BoundaryProxy.Profile.Basic
import BoundaryProxy.Registry.Basic

/-!
# `BoundaryProxy.Registry.Classification` — how a type crosses the boundary

Every type plays exactly one part: a registry member, which crosses as its key; a registry container; or a
type that passes through unchanged. A type that is both member and container counts as a member.

The part of the wrapped type decides how a proxy reaches its object (`Access`).
-/

namespace BoundaryProxy

/-- The part a type plays at the boundary. -/
inductive Classification where
  | passThrough
  | member (descriptor : RegistryDescriptor)
  | container (descriptor : RegistryDescriptor)
deriving Repr, DecidableEq

/-- The part a type plays. -/
def RegistrySet.classify (r : RegistrySet) (t : TypeExpr) : Classification :=
  match r.byMember? t, r.byContainer? t with
  | some d, _ => .member d
  | none, some d => .container d
  | none, none => .passThrough

/-- How a proxy reaches the object it stands for. -/
inductive Access where
  /-- The object is handed to the constructor. -/
  | injected
  /-- The object is looked up in its registry on every call. -/
  | resolved (descriptor : RegistryDescriptor)
  /-- The object is the registry itself. -/
  | container (descriptor : RegistryDescriptor)
  /-- The object stands at a fixed path. -/
  | singleton (path : String)
deriving Repr, DecidableEq

/-- How a proxy of a type reaches its object. -/
def Access.of (t : TypeExpr) (r : RegistrySet) (p : Profile) : Access :=
  match r.classify t with
  | .member d => .resolved d
  | .container d => .container d
  | .passThrough =>
    match p.singleton? t.name with
    | some binding => .singleton binding.path
    | none => .injected

/-- The descriptor of an object that is looked up on every call. -/
def Access.member? : Access → Option RegistryDescriptor
  | resolved d => some d
  | _ => none

end BoundaryProxy
